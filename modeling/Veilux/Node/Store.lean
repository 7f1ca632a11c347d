/-
The data directory of `store/src/lib.rs`.  A log is the list of its lines; a
snapshot file is absent or holds the bytes last renamed into place.  The
environment says which operations fail and what a failed write leaves behind.
-/

import Veilux.Kernel.State

namespace Veilux

inductive StoreOp where
  | appendBlock
  | loadBlocks
  | saveState
  | loadState
  | savePrivateState
  | loadPrivateState
  | savePrivateCommitments
  | loadPrivateCommitments
  | appendPending
  | loadPending
  | rewritePending
  deriving DecidableEq

inductive StoreError where
  | io (text : String)
  | serde (text : String)
  | corrupt (line : Nat)
  deriving DecidableEq

/-- The `Display` texts. -/
def StoreError.text : StoreError → String
  | .io text => "io error: " ++ text
  | .serde text => "serialization error: " ++ text
  | .corrupt line => "corrupt block log at line " ++ Nat.repr line

structure Store where
  blocks : List (List UInt8)
  state : Option (List UInt8)
  privateState : Option (List UInt8)
  privateCommitments : Option (List UInt8)
  pending : List (List UInt8)

structure IoFault where
  text : String
  left : Store → Store

/-- What a call finds outside the process: the clock and the failures of the disk. -/
structure Env where
  now : UInt64
  io : StoreOp → Option IoFault

namespace Env

/-- A clock and a disk that works. -/
def healthy (now : UInt64) : Env :=
  { now := now
    io := fun _ => none }

end Env

namespace Store

def empty : Store :=
  { blocks := []
    state := none
    privateState := none
    privateCommitments := none
    pending := [] }

def write (env : Env) (op : StoreOp) (update : Store → Store) (store : Store) :
    Except StoreError Unit × Store :=
  match env.io op with
  | some fault => (.error (.io fault.text), fault.left store)
  | none => (.ok (), update store)

def read {α : Type} (env : Env) (op : StoreOp) (value : Except StoreError α) :
    Except StoreError α :=
  match env.io op with
  | some fault => .error (.io fault.text)
  | none => value

/-- `line.trim().is_empty()` on the ASCII text of a log line. -/
def blank (line : List UInt8) : Bool :=
  line.all fun byte => byte = 0x20 || (0x09 ≤ byte && byte ≤ 0x0d)

def appendBlock (env : Env) (block : Block) : Store → Except StoreError Unit × Store :=
  write env .appendBlock fun store => { store with blocks := store.blocks ++ [toVec block] }

def saveState (env : Env) (state : StateTree) : Store → Except StoreError Unit × Store :=
  write env .saveState fun store => { store with state := some (toVec state) }

def savePrivateState (env : Env) (state : StateTree) :
    Store → Except StoreError Unit × Store :=
  write env .savePrivateState fun store => { store with privateState := some (toVec state) }

def savePrivateCommitments (env : Env) (commitments : List Hash) :
    Store → Except StoreError Unit × Store :=
  write env .savePrivateCommitments fun store =>
    { store with privateCommitments := some (toVec commitments) }

def appendPending (env : Env) (signed : SignedCommand) :
    Store → Except StoreError Unit × Store :=
  write env .appendPending fun store => { store with pending := store.pending ++ [toVec signed] }

def rewritePending (env : Env) (pending : List SignedCommand) :
    Store → Except StoreError Unit × Store :=
  write env .rewritePending fun store => { store with pending := pending.map toVec }

section Loading

variable [SerdeJson]

/-- Lines are numbered from one; the first one that does not parse is reported. -/
def parseBlocks : Nat → List (List UInt8) → Except StoreError (List Block)
  | _, [] => .ok []
  | number, line :: rest =>
      if blank line then parseBlocks (number + 1) rest
      else
        match fromSlice Block line with
        | .error _ => .error (.corrupt number)
        | .ok block =>
            match parseBlocks (number + 1) rest with
            | .error error => .error error
            | .ok blocks => .ok (block :: blocks)

def loadBlocks (env : Env) (store : Store) : Except StoreError (List Block) :=
  read env .loadBlocks (parseBlocks 1 store.blocks)

/-- A snapshot file: absent, or parsed whole. -/
def loadSnapshot (α : Type) [Serialize α] (env : Env) (op : StoreOp)
    (file : Option (List UInt8)) : Except StoreError (Option α) :=
  read env op <|
    match file with
    | none => .ok none
    | some bytes =>
        match fromSlice α bytes with
        | .error text => .error (.serde text)
        | .ok value => .ok (some value)

def loadState (env : Env) (store : Store) : Except StoreError (Option StateTree) :=
  loadSnapshot StateTree env .loadState store.state

def loadPrivateState (env : Env) (store : Store) : Except StoreError (Option StateTree) :=
  loadSnapshot StateTree env .loadPrivateState store.privateState

def loadPrivateCommitments (env : Env) (store : Store) : Except StoreError (List Hash) :=
  (loadSnapshot (List Hash) env .loadPrivateCommitments store.privateCommitments).map
    (·.getD [])

/-- Lines that do not parse are skipped. -/
def loadPending (env : Env) (store : Store) : Except StoreError (List SignedCommand) :=
  read env .loadPending <| .ok <|
    (store.pending.filter (fun line => !blank line)).filterMap fun line =>
      (fromSlice SignedCommand line).toOption

end Loading

end Store

end Veilux
