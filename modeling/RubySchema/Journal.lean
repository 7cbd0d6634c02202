import RubySchema.Error

/-!
What a run notes on its way. The notes made before a failure are kept.
-/

namespace RubySchema

/-- How much a note matters. -/
inductive Level where
  | debug
  | info
  | warning
  deriving DecidableEq, Repr, Inhabited

def Level.word : Level → String
  | .debug => "DEBUG"
  | .info => "INFO"
  | .warning => "WARNING"

structure Note where
  level : Level
  text : String
  deriving DecidableEq, Repr, Inhabited

/-- An outcome and the notes made on the way to it. -/
structure Noted (α : Type) where
  notes : List Note
  outcome : Except Error α

namespace Noted

/-- An outcome without notes. -/
def ofExcept {α : Type} (outcome : Except Error α) : Noted α :=
  { notes := [], outcome }

/-- Notes alone. -/
def note (notes : List Note) : Noted Unit :=
  { notes, outcome := .ok () }

/-- A further step; a failure leaves it out. -/
def andThen {α β : Type} (first : Noted α) (next : α → Noted β) : Noted β :=
  match first.outcome with
  | .ok value => { notes := first.notes ++ (next value).notes, outcome := (next value).outcome }
  | .error cause => { notes := first.notes, outcome := .error cause }

instance : Monad Noted where
  pure value := { notes := [], outcome := .ok value }
  bind := andThen

/-- The outcome of two steps is that of the second after the first. -/
@[simp]
theorem outcome_bind {α β : Type} (first : Noted α) (next : α → Noted β)
    : (first >>= next).outcome = first.outcome >>= fun value => (next value).outcome := by
  show (andThen first next).outcome = _
  unfold andThen
  cases first.outcome <;> rfl

end Noted

end RubySchema
