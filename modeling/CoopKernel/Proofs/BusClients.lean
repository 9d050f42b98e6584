import CoopKernel.Proofs.NestOperations
import CoopKernel.Proofs.TransferData
import CoopKernel.Proofs.TransferProgress
import Mathlib.Logic.Relation

/-!
# Clients of one bus

A client asks for the bus with a script of transfers. Each time its task runs it
starts the next of them, and when none is left it lets go of the bus. Requests
come at any time, one client may come again and again, and whatever else goes on
in the main queue or on other buses only has to leave this bus alone. Taking a
task out of the main queue and running it are two moves, so that something may
come between.

The world remembers what happened: accepted sessions, transfers started and
client runs, oldest first.
-/

namespace CoopKernel

open Spi

/-- The queues of a kernel are lists. -/
def Kernel.Orderly (k : Kernel) : Prop := k.Holds k.chain

theorem Kernel.Holds.orderly {k : Kernel} {lists : QueueId → List TaskId} (h : k.Holds lists) :
    k.Orderly ∧ k.chain = lists := by
  have same : k.chain = lists := funext h.chain
  exact ⟨by rw [Orderly, same]; exact h, same⟩

structure Session where
  client : Nat
  script : List Transfer

namespace Session

def task (s : Session) : TaskId := .user s.client

def steps (s : Session) : List (Nat × Transfer) := s.script.map fun t => (s.client, t)

/-- A run for the grant and one after each transfer. -/
def runs (s : Session) : List Nat := List.replicate (s.script.length + 1) s.client

end Session

structure Started where
  client : Nat
  transfer : Transfer
  /-- What the memory was when it was started. -/
  memory : Memory

def Started.step (s : Started) : Nat × Transfer := (s.client, s.transfer)

structure BusWorld where
  board : Board
  /-- Taken out of the main queue and about to run. -/
  hand : Option TaskId := none
  /-- What is left of each client's script. -/
  left : Nat → List Transfer := fun _ => []
  sessions : List Session := []
  started : List Started := []
  ran : List Nat := []

def ours (clients : Nat → Bool) (bus : Nat) : TaskId → Bool
  | .user i => clients i
  | .poll p => p == bus

/-- Somebody else did something: the transfer on the bus and its cells, the bus's own tasks in
all queues, and who holds the bus or waits for it are as before. -/
structure Board.Elsewhere (clients : Nat → Bool) (bus : Nat) (lent : Nat → Prop) (b b' : Board) :
    Prop where
  apart : Apart lent bus b b'
  orderly : b.kernel.Orderly → b'.kernel.Orderly
  chains : ∀ q, (b'.kernel.chain q).filter (ours clients bus) =
    (b.kernel.chain q).filter (ours clients bus)
  waiting : b'.kernel.chain (.waiting (.bus bus)) = b.kernel.chain (.waiting (.bus bus))
  holder : b'.kernel.holder (.bus bus) = b.kernel.holder (.bus bus)
  feeds : b'.kernel.feeds (.bus bus) = b.kernel.feeds (.bus bus)
  bound : ∀ t, b.kernel.isBound t = true → b'.kernel.isBound t = true

namespace BusWorld

inductive Move where
  | request (client : Nat) (script : List Transfer)
  | take
  | run

variable (clients : Nat → Bool) (bus : Nat)

def accepted (i : Nat) (script : List Transfer) (b : Board) (w : BusWorld) : BusWorld :=
  { w with
    board := b
    left := fun j => if j = i then script else w.left j
    sessions := w.sessions ++ [⟨i, script⟩] }

/-- A client asks for the bus, while it neither holds the bus nor sits in a queue. Its script has
no transfer that is refused for its arguments. -/
def request (i : Nat) (script : List Transfer) (w : BusWorld) : Option BusWorld :=
  if clients i && script.all (·.fault?.isNone) && !w.board.kernel.isQueued (.user i) &&
      w.board.kernel.holder (.bus bus) ≠ some (.user i) then
    match Board.request bus (.user i) w.board with
    | .ok _ b => some (w.accepted i script b)
    | .error _ _ => none
  else none

def take (w : BusWorld) : Option BusWorld :=
  match w.hand with
  | some _ => none
  | none =>
    let (popped, k) := w.board.kernel.pop (w.board.feedQueue bus)
    some { w with
      board := { w.board with kernel := k }
      hand := popped.filter (ours clients bus) }

def begun (i : Nat) (t : Transfer) (rest : List Transfer) (b : Board) (w : BusWorld) : BusWorld :=
  { w with
    board := b
    hand := none
    left := fun j => if j = i then rest else w.left j
    started := w.started ++ [⟨i, t, w.board.memory⟩]
    ran := w.ran ++ [i] }

def ended (i : Nat) (b : Board) (w : BusWorld) : BusWorld :=
  { w with board := b, hand := none, ran := w.ran ++ [i] }

def runClient (i : Nat) (w : BusWorld) : Option BusWorld :=
  match w.left i with
  | t :: rest =>
    match Board.start bus t w.board with
    | .ok _ b => some (w.begun i t rest b)
    | .error _ _ => none
  | [] =>
    match Board.release bus w.board with
    | .ok _ b => some (w.ended i b)
    | .error _ _ => none

def run (w : BusWorld) : Option BusWorld :=
  match w.hand with
  | none => none
  | some (.user i) => w.runClient bus i
  | some (.poll p) =>
    match Board.runPoller p w.board with
    | .ok _ b => some { w with board := b, hand := none }
    | .error _ _ => none

def move (w : BusWorld) : Move → Option BusWorld
  | .request i script => w.request clients bus i script
  | .take => w.take clients bus
  | .run => w.run bus

def isBusy (w : BusWorld) : Bool := (w.board.masters.get bus).status = .inProgress

def lent (w : BusWorld) (a : Nat) : Prop :=
  w.isBusy bus = true ∧ ∃ s, w.started.getLast? = some s ∧ a ∈ s.transfer.lent

inductive Event : BusWorld → BusWorld → Prop where
  | others {w : BusWorld} {b : Board} (elsewhere : w.board.Elsewhere clients bus (w.lent bus) b) :
    Event w { w with board := b }
  | move {w w' : BusWorld} {m : Move} (moved : w.move clients bus m = some w') : Event w w'

abbrev Events : BusWorld → BusWorld → Prop := Relation.ReflTransGen (Event clients bus)

end BusWorld

structure Board.Quiet (clients : Nat → Bool) (bus feed : Nat) (b : Board) : Prop where
  orderly : b.kernel.Orderly
  feeds : b.feedQueue bus = .main feed
  holder : b.kernel.holder (.bus bus) = none
  waiting : b.kernel.chain (.waiting (.bus bus)) = []
  nobody : ∀ q, (b.kernel.chain q).filter (ours clients bus) = []
  idle : (b.masters.get bus).status ≠ .inProgress

/-- Traffic of a transfer that is through. If its buffers do not overlap and no buffer of a list
is empty, what went out is its write buffers. -/
structure Spi.Transfer.Carried (t : Transfer) (start : Memory) (wires : List Wire) : Prop where
  received : (Wire.received wires).length = t.beats.length
  sent : Wire.sent wires = clocked start t.beats (Wire.received wires)
  outgoing : t.Full → (∀ a ∈ t.lent, a ∉ t.targets) → Wire.sent wires = t.outgoing start

structure Spi.Transfer.Begun (t : Transfer) (start : Memory) (wires : List Wire) : Prop where
  sent : Wire.sent wires <+: clocked start t.beats (Wire.received wires)
  outgoing : t.Full → (∀ a ∈ t.lent, a ∉ t.targets) → Wire.sent wires <+: t.outgoing start

/-- One part of the traffic for each transfer, in order. -/
def Traffic (started : List Started) (wires : List Wire) : Prop :=
  ∃ parts : List (List Wire), wires = parts.flatten ∧
    List.Forall₂ (fun s part => s.transfer.Carried s.memory part) started parts

namespace BusWorld

def holder (bus : Nat) (w : BusWorld) : Option TaskId := w.board.kernel.holder (.bus bus)

def waiting (bus : Nat) (w : BusWorld) : List TaskId := w.board.kernel.chain (.waiting (.bus bus))

structure Free (bus : Nat) (w : BusWorld) : Prop where
  holder : w.holder bus = none
  waiting : w.waiting bus = []
  idle : w.isBusy bus = false
  started : w.started.map Started.step = w.sessions.flatMap Session.steps
  ran : w.ran = w.sessions.flatMap Session.runs

/-- Session `s` is open, with the transfers `begun` started; `queue` is still to come. -/
structure Taken (bus : Nat) (w : BusWorld) (finished : List Session) (s : Session)
    (begun : List Transfer) (queue : List Session) : Prop where
  holder : w.holder bus = some s.task
  sessions : w.sessions = finished ++ s :: queue
  script : s.script = begun ++ w.left s.client
  waiting : w.waiting bus = queue.map Session.task
  intact : ∀ other ∈ queue, other.client ≠ s.client ∧ w.left other.client = other.script
  started : w.started.map Started.step =
    finished.flatMap Session.steps ++ begun.map fun t => (s.client, t)
  ran : w.ran = finished.flatMap Session.runs ++ List.replicate begun.length s.client

/-- The wire is the traffic of the transfers started, each whole; only the last one may be in
progress. `old` is what was there before. -/
def OnWire (bus : Nat) (old : List Wire) (w : BusWorld) : Prop :=
  if w.isBusy bus then
    ∃ before last wires part, w.started = before ++ [last] ∧ Traffic before wires ∧
      last.transfer.Begun last.memory part ∧ w.board.kernel.wires bus = old ++ wires ++ part
  else ∃ wires, Traffic w.started wires ∧ w.board.kernel.wires bus = old ++ wires

end BusWorld

end CoopKernel
