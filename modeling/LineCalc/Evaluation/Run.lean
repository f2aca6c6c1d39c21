/-!
# Faults, warnings and runs

A run is what a computation comes to: the warnings it gave on the way and its end,
a value or a fault. Runs follow one another as a monad. A fault ends the whole
computation, and the warnings given before it are kept.
-/

namespace LineCalc

/-- What ends an evaluation without a result. -/
inductive Fault where
  /-- An integer was divided by zero. -/
  | divisionByZero
  /-- An exact integer result that 128 bits with a sign cannot hold. -/
  | overflow (exact : Int)
  /-- An operator that the language does not have. -/
  | unknownOperator (op : String)
  /-- A node of a foreign kind. -/
  | unknownNode (name : String)
  /-- A literal beyond the finite doubles. -/
  | literalTooLarge
deriving DecidableEq, Repr

/-- A fault as it is told to the user. -/
def Fault.message : Fault → String
  | divisionByZero => "division by zero"
  | overflow exact => s!"integer overflow: {exact} does not fit in i128"
  | unknownOperator op => s!"Unknown operator: {op}"
  | unknownNode name => s!"Unknown expression type: {name}"
  | literalTooLarge => "int too large to convert to float"

/-- What an evaluation remarks on without ending. -/
inductive Warning where
  /-- An integer division dropped a remainder. -/
  | truncatedDivision
deriving DecidableEq, Repr

/-- A warning as it is told to the user. -/
def Warning.message : Warning → String
  | truncatedDivision => "division will cause a cast"

/-- What a computation comes to. -/
structure Run (α : Type) where
  warnings : List Warning
  outcome : Except Fault α
deriving Repr

namespace Run

variable {α β : Type}

/-- A run that only gives a warning. -/
def warn (w : Warning) : Run Unit := ⟨[w], .ok ()⟩

/-- A run that ends in a fault. -/
def fault (f : Fault) : Run α := ⟨[], .error f⟩

/-- One run after another, unless the first one ends in a fault. -/
def andThen (x : Run α) (f : α → Run β) : Run β :=
  match x.outcome with
  | .error e => ⟨x.warnings, .error e⟩
  | .ok a => ⟨x.warnings ++ (f a).warnings, (f a).outcome⟩

/-- What to do when a run ends in a fault; its warnings stay. -/
def recover (x : Run α) (handle : Fault → Run α) : Run α :=
  match x.outcome with
  | .error e => ⟨x.warnings ++ (handle e).warnings, (handle e).outcome⟩
  | .ok a => ⟨x.warnings, .ok a⟩

instance : Monad Run where
  pure a := ⟨[], .ok a⟩
  bind := andThen

instance : MonadExceptOf Fault Run where
  throw := fault
  tryCatch := recover

theorem bind_eq (x : Run α) (f : α → Run β) : x >>= f = x.andThen f := rfl

theorem pure_eq (a : α) : (pure a : Run α) = ⟨[], .ok a⟩ := rfl

instance : LawfulMonad Run :=
  LawfulMonad.mk' Run
    (by rintro α ⟨w, _ | a⟩ <;> simp [Functor.map, andThen])
    (by intro α β a f; simp [bind, pure, andThen])
    (by
      rintro α β γ ⟨w, _ | a⟩ f g
      · rfl
      · rcases h : f a with ⟨v, _ | b⟩ <;> simp [bind, andThen, h])

end Run

end LineCalc
