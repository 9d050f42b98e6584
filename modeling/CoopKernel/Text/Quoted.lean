import CoopKernel.Text.Hex

/-!
# Quoted text

A string literal of the data format that transcripts use: quotes, backslashes
and control characters are escaped, everything else stands for itself.
-/

namespace CoopKernel.Quoted

def escape (c : Char) : String :=
  if c = '\"' then "\\\""
  else if c = '\\' then "\\\\"
  else if c = '\n' then "\\n"
  else if c = '\r' then "\\r"
  else if c = '\t' then "\\t"
  else if c = '\x08' then "\\b"
  else if c = '\x0c' then "\\f"
  else if c.toNat < 32 then "\\u00" ++ Hex.byte c.toNat.toUInt8
  else c.toString

def encode (s : String) : String := "\"" ++ String.join (s.toList.map escape) ++ "\""

end CoopKernel.Quoted
