import Dataflow.Pipeline.Catalogue
/-!
# The journal

Components leave notes on what they have done. A journalled computation ends with an outcome and the
notes that were left up to then, also where it fails.
-/
namespace Dataflow

inductive Level where
  | debug
  | info
  deriving DecidableEq

namespace Level

def name : Level → String
  | debug => "DEBUG"
  | info => "INFO"

/-- A listener hears its own level and those above. -/
def hears (listener note : Level) : Bool := listener = .debug || note = .info

end Level

structure Note where
  level : Level
  component : Component
  text : String
  deriving DecidableEq

structure Journalled (ε α : Type) where
  notes : List Note
  outcome : Except ε α

namespace Journalled

variable {ε α β : Type}

def pure (a : α) : Journalled ε α := ⟨[], .ok a⟩

/-- The second computation runs where the first one succeeds, and its notes follow. -/
def bind (x : Journalled ε α) (f : α → Journalled ε β) : Journalled ε β :=
  match x.outcome with
  | .error e => ⟨x.notes, .error e⟩
  | .ok a => ⟨x.notes ++ (f a).notes, (f a).outcome⟩

instance : Monad (Journalled ε) where
  pure := pure
  bind := bind

/-- A computation that leaves no notes. -/
def silent (outcome : Except ε α) : Journalled ε α := ⟨[], outcome⟩

def note (level : Level) (component : Component) (text : String) : Journalled ε Unit :=
  ⟨[⟨level, component, text⟩], .ok ()⟩

@[simp] theorem outcome_pure (a : α) : (Pure.pure a : Journalled ε α).outcome = .ok a := rfl

@[simp] theorem outcome_silent (x : Except ε α) : (silent x).outcome = x := rfl

@[simp] theorem outcome_note (level : Level) (component : Component) (text : String) :
    (note level component text : Journalled ε Unit).outcome = .ok () := rfl

@[simp] theorem outcome_bind (x : Journalled ε α) (f : α → Journalled ε β) :
    (x >>= f).outcome = x.outcome.bind fun a => (f a).outcome := by
  show (Journalled.bind x f).outcome = _
  unfold Journalled.bind
  cases x.outcome <;> rfl

end Journalled

end Dataflow
