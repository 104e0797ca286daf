import ApexosRv.Driver

/-!
# Scripted inference

The transcript player of `agent-core/src/goal.rs` and the transcripts compiled
into the kernel.
-/

namespace ApexosRv

/-- One transcript entry; `pending` is not consumed. -/
inductive ScriptStep where
  | continue
  | continueWith (steer : String)
  | done
  | blocked (reason : String)
  | stall
  | pending
  deriving DecidableEq, Repr

structure ScriptedInference where
  steps : List ScriptStep
  «at» : Nat
  deriving DecidableEq, Repr

namespace ScriptedInference

def new (steps : List ScriptStep) : ScriptedInference := ⟨steps, 0⟩

def next (self : ScriptedInference) (_ctx : TickContext) : TurnResult × ScriptedInference :=
  match self.steps[self.at]? with
  | some .pending => (.pending, self)
  | entry =>
    let self := { self with «at» := self.at + 1 }
    match entry with
    | some .continue => (.completed (.continue none), self)
    | some (.continueWith s) => (.completed (.continue (some s)), self)
    | some .done => (.completed .done, self)
    | some (.blocked r) => (.completed (.blocked r), self)
    | some .stall => (.stalled, self)
    | none => (.stalled, self)
    -- unreachable: taken above
    | some .pending => (.pending, self)

instance : Inference ScriptedInference := ⟨next⟩

end ScriptedInference

def SCRIPT_SUCCESS : List ScriptStep :=
  [.continue, .continueWith "summarize sensor coverage, then wrap up", .done]

def SCRIPT_HANG : List ScriptStep := [.continue, .pending]

end ApexosRv
