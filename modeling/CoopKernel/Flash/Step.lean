/-!
# Steps of a flash conversation

Two operations talk to the flash chip, each in several transfers. The step says
what the next call finds.
-/

namespace CoopKernel.Flash

inductive Operation where
  | identify
  | await
deriving DecidableEq, Repr

def Operation.name : Operation → String
  | identify => "identify"
  | await => "wait_ready"

inductive Step where
  | idle
  | identifyFetchStatus
  | identifyGotStatus
  | identifyFetchId
  | identifyGotId
  | waitFetchStatus
  | waitGotStatus
deriving DecidableEq, Repr, Inhabited

def Step.name : Step → String
  | idle => "Idle"
  | identifyFetchStatus => "IdentifyFetchStatus"
  | identifyGotStatus => "IdentifyGotStatus"
  | identifyFetchId => "IdentifyFetchId"
  | identifyGotId => "IdentifyGotId"
  | waitFetchStatus => "WaitFetchStatus"
  | waitGotStatus => "WaitGotStatus"

/-- Whether a call moved a conversation on or ended it. -/
inductive Progress where
  | pending
  | done
deriving DecidableEq, Repr

def Progress.name : Progress → String
  | pending => "Pending"
  | done => "Done"

end CoopKernel.Flash
