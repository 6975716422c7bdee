import ScriptValues.Failure

/-!
# Arguments

The arguments of one call under the name that was called, and the typed look at one position. A
missing argument is an arity failure; an argument of another kind is a type failure that names the
position, counted from one.
-/

namespace ScriptValues

/-- The arguments of a call. -/
structure Arguments where
  name : String
  values : List Value

namespace Arguments

variable {α : Type}

def fail (a : Arguments) (cause : Cause) : Result α := .error (.failure ⟨a.name, cause⟩)

/-- The type failure at position `i`, counted from zero. -/
def mismatch (a : Arguments) (i : Nat) (expected : Expectation) : Result α :=
  a.fail (.type (i + 1) expected ((a.values[i]?.map Value.kind).getD .null))

/-- The argument at position `i`. -/
def value (a : Arguments) (i : Nat) : Result Value :=
  match a.values[i]? with
  | some v => .ok v
  | none => a.fail (.arity (.atLeast (i + 1)) a.values.length)

/-- The content that `get?` finds in the argument at position `i`. -/
def expect (a : Arguments) (i : Nat) (kinds : List Kind) (get? : Value → Option α) : Result α :=
  match a.value i with
  | .error halt => .error halt
  | .ok v =>
    match get? v with
    | some content => .ok content
    | none => a.mismatch i (.kinds kinds)

def int (a : Arguments) (i : Nat) : Result Int64 := a.expect i [.integer] Value.asInt?

/-- The number at position `i`, as it is. -/
def number (a : Arguments) (i : Nat) : Result Value :=
  a.expect i [.integer, .float] fun v => if v.isNumeric then some v else none

def string (a : Arguments) (i : Nat) : Result String := a.expect i [.string] Value.asString?

def boolean (a : Arguments) (i : Nat) : Result Bool :=
  a.expect i [.bool] fun
    | .bool b => some b
    | _ => none

def list (a : Arguments) (i : Nat) : Result (List Value) := a.expect i [.list] Value.asList?

def mapping (a : Arguments) (i : Nat) : Result (Entries Value) :=
  a.expect i [.mapping] Value.asMapping?

def future (a : Arguments) (i : Nat) : Result FutureId :=
  a.expect i [.future] fun
    | .future id => some id
    | _ => none

/-! ## When a look succeeds -/

theorem fail_ne_ok {a : Arguments} {cause : Cause} {content : α} : a.fail cause ≠ .ok content := by
  simp [fail]

theorem mismatch_ne_ok {a : Arguments} {i : Nat} {expected : Expectation} {content : α} :
    a.mismatch i expected ≠ .ok content :=
  fail_ne_ok

theorem value_eq_ok {a : Arguments} {i : Nat} {v : Value} :
    a.value i = .ok v ↔ a.values[i]? = some v := by
  unfold value
  cases a.values[i]? <;> simp [fail]

theorem expect_eq_ok {a : Arguments} {i : Nat} {kinds : List Kind} {get? : Value → Option α}
    {content : α} :
    a.expect i kinds get? = .ok content ↔ ∃ v, a.values[i]? = some v ∧ get? v = some content := by
  unfold expect value
  cases a.values[i]? with
  | none => simp [fail]
  | some v => cases h : get? v <;> simp [mismatch, fail, h]

theorem number_eq_ok {a : Arguments} {i : Nat} {v : Value} :
    a.number i = .ok v ↔ a.values[i]? = some v ∧ v.isNumeric := by
  rw [number, expect_eq_ok]
  constructor
  · rintro ⟨w, hw, hv⟩
    split at hv
    · next hn =>
      obtain rfl := Option.some.inj hv
      exact ⟨hw, hn⟩
    · cases hv
  · rintro ⟨h, hn⟩
    exact ⟨v, h, if_pos hn⟩

theorem string_eq_ok {a : Arguments} {i : Nat} {s : String} :
    a.string i = .ok s ↔ a.values[i]? = some (.string s) := by
  rw [string, expect_eq_ok]
  constructor
  · rintro ⟨v, hv, hs⟩
    cases v <;> simp_all [Value.asString?]
  · intro h
    exact ⟨_, h, rfl⟩

theorem list_eq_ok {a : Arguments} {i : Nat} {items : List Value} :
    a.list i = .ok items ↔ a.values[i]? = some (.list items) := by
  rw [list, expect_eq_ok]
  constructor
  · rintro ⟨v, hv, hs⟩
    cases v <;> simp_all [Value.asList?]
  · intro h
    exact ⟨_, h, rfl⟩

theorem mapping_eq_ok {a : Arguments} {i : Nat} {entries : Entries Value} :
    a.mapping i = .ok entries ↔ a.values[i]? = some (.mapping entries) := by
  rw [mapping, expect_eq_ok]
  constructor
  · rintro ⟨v, hv, hs⟩
    cases v <;> simp_all [Value.asMapping?]
  · intro h
    exact ⟨_, h, rfl⟩

theorem future_eq_ok {a : Arguments} {i : Nat} {id : FutureId} :
    a.future i = .ok id ↔ a.values[i]? = some (.future id) := by
  rw [future, expect_eq_ok]
  constructor
  · rintro ⟨v, hv, hs⟩
    cases v <;> simp_all
  · intro h
    exact ⟨_, h, rfl⟩

end Arguments

end ScriptValues
