import ScriptValues.Text.Quoted

/-!
# Builtins

A builtin binds a name to an operation. The operations that only compute, from their arguments, are
kept apart from those that act on the world. Several names may be bound to one operation; the
registry lists every binding once.
-/

namespace ScriptValues

/-- How many arguments an operation takes. -/
inductive Arity where
  | exact (count : Nat)
  | atLeast (count : Nat)
  deriving DecidableEq, Repr

namespace Arity

/-- Whether a call with `count` arguments is allowed. -/
def accepts : Arity → Nat → Bool
  | .exact n, count => count == n
  | .atLeast n, count => n ≤ count

def text (arity : Arity) : String :=
  let counted (n : Nat) : String := n.repr ++ (if n = 1 then " argument" else " arguments")
  match arity with
  | .exact n => counted n
  | .atLeast n => "at least " ++ counted n

/-- The form of an arity in a description of a builtin. -/
def form : Arity → String
  | .exact n => "Exact(" ++ n.repr ++ ")"
  | .atLeast n => "AtLeast(" ++ n.repr ++ ")"

end Arity

/-- The binary operators of the language. -/
inductive BinaryOperator where
  | add
  | subtract
  | multiply
  | divide
  | remainder
  | power
  deriving DecidableEq, Repr

def BinaryOperator.symbol : BinaryOperator → String
  | .add => "+"
  | .subtract => "-"
  | .multiply => "*"
  | .divide => "/"
  | .remainder => "%"
  | .power => "**"

/-- Operations whose answer depends on their arguments alone, and on which futures are resolved
where an argument is rendered. -/
inductive Computation where
  | split | join | substring | replace | trim | toUpper | toLower | contains | startsWith | endsWith
  | len | append | prepend | pop | shift | slice | clampedSlice | sort | reverse | concat
  | indexOf | includes | get | first | last
  | mapGet | mapSet | mapHas | mapKeys | mapValues | mapDelete | mapClear | mapEntries | mapSize
  | toString | toNumber | toInt | toBool
  | sqrt | abs | round | floor | ceil | min | max
  | typeOf | isNull | isEmpty | spawn
  deriving DecidableEq, Repr

/-- What a builtin does. -/
inductive Operation where
  | compute (computation : Computation)
  | arithmetic (operator : BinaryOperator)
  | print
  | readLine
  | readFile
  | writeFile
  | await
  deriving DecidableEq, Repr

def Computation.arity : Computation → Arity
  | .substring | .replace | .slice | .clampedSlice | .mapSet => .exact 3
  | .split | .join | .contains | .startsWith | .endsWith
  | .append | .prepend | .concat | .indexOf | .includes | .get
  | .mapGet | .mapHas | .mapDelete | .min | .max => .exact 2
  | .trim | .toUpper | .toLower | .len | .pop | .shift | .sort | .reverse | .first | .last
  | .mapKeys | .mapValues | .mapClear | .mapEntries | .mapSize
  | .toString | .toNumber | .toInt | .toBool | .sqrt | .abs | .round | .floor | .ceil
  | .typeOf | .isNull | .isEmpty | .spawn => .exact 1

def Operation.arity : Operation → Arity
  | .compute computation => computation.arity
  | .arithmetic _ => .exact 2
  | .print => .atLeast 0
  | .readLine => .exact 0
  | .readFile => .exact 1
  | .writeFile => .exact 2
  | .await => .exact 1

/-- A name bound to an operation. -/
structure Builtin where
  name : String
  operation : Operation
  deriving DecidableEq, Repr

namespace Builtin

def arity (b : Builtin) : Arity := b.operation.arity

/-- The description of a callable with this name and arity. -/
def describe (name : String) (arity : Arity) : String :=
  "Builtin \x7b name: " ++ quoted name ++ ", arity: " ++ arity.form ++ ", .. \x7d"

def registry : List Builtin := [
  ⟨"split", .compute .split⟩,
  ⟨"join", .compute .join⟩,
  ⟨"substring", .compute .substring⟩,
  ⟨"replace", .compute .replace⟩,
  ⟨"trim", .compute .trim⟩,
  ⟨"to_upper", .compute .toUpper⟩,
  ⟨"to_lower", .compute .toLower⟩,
  ⟨"contains", .compute .contains⟩,
  ⟨"starts_with", .compute .startsWith⟩,
  ⟨"ends_with", .compute .endsWith⟩,
  ⟨"len", .compute .len⟩,
  ⟨"append", .compute .append⟩,
  ⟨"push", .compute .append⟩,
  ⟨"prepend", .compute .prepend⟩,
  ⟨"unshift", .compute .prepend⟩,
  ⟨"pop", .compute .pop⟩,
  ⟨"shift", .compute .shift⟩,
  ⟨"slice", .compute .slice⟩,
  ⟨"ListSlice", .compute .clampedSlice⟩,
  ⟨"sort", .compute .sort⟩,
  ⟨"reverse", .compute .reverse⟩,
  ⟨"concat", .compute .concat⟩,
  ⟨"indexOf", .compute .indexOf⟩,
  ⟨"includes", .compute .includes⟩,
  ⟨"get", .compute .get⟩,
  ⟨"first", .compute .first⟩,
  ⟨"last", .compute .last⟩,
  ⟨"map_get", .compute .mapGet⟩,
  ⟨"MapGet", .compute .mapGet⟩,
  ⟨"map_set", .compute .mapSet⟩,
  ⟨"MapSet", .compute .mapSet⟩,
  ⟨"map_has", .compute .mapHas⟩,
  ⟨"MapHas", .compute .mapHas⟩,
  ⟨"map_keys", .compute .mapKeys⟩,
  ⟨"MapKeys", .compute .mapKeys⟩,
  ⟨"map_values", .compute .mapValues⟩,
  ⟨"MapValues", .compute .mapValues⟩,
  ⟨"map_delete", .compute .mapDelete⟩,
  ⟨"MapDelete", .compute .mapDelete⟩,
  ⟨"map_clear", .compute .mapClear⟩,
  ⟨"map_entries", .compute .mapEntries⟩,
  ⟨"map_size", .compute .mapSize⟩,
  ⟨"ToString", .compute .toString⟩,
  ⟨"ToNumber", .compute .toNumber⟩,
  ⟨"ToInt", .compute .toInt⟩,
  ⟨"ToBool", .compute .toBool⟩,
  ⟨"Add", .arithmetic .add⟩,
  ⟨"Subtract", .arithmetic .subtract⟩,
  ⟨"Multiply", .arithmetic .multiply⟩,
  ⟨"Divide", .arithmetic .divide⟩,
  ⟨"Power", .arithmetic .power⟩,
  ⟨"mod", .arithmetic .remainder⟩,
  ⟨"Sqrt", .compute .sqrt⟩,
  ⟨"Abs", .compute .abs⟩,
  ⟨"Round", .compute .round⟩,
  ⟨"floor", .compute .floor⟩,
  ⟨"ceil", .compute .ceil⟩,
  ⟨"Min", .compute .min⟩,
  ⟨"Max", .compute .max⟩,
  ⟨"ReadLine", .readLine⟩,
  ⟨"ReadFile", .readFile⟩,
  ⟨"WriteFile", .writeFile⟩,
  ⟨"TypeOf", .compute .typeOf⟩,
  ⟨"IsNull", .compute .isNull⟩,
  ⟨"IsEmpty", .compute .isEmpty⟩,
  ⟨"print", .print⟩,
  ⟨"Spawn", .compute .spawn⟩,
  ⟨"Await", .await⟩]

def lookup? (name : String) : Option Builtin := registry.find? (·.name = name)

/-- Every builtin, in code-point order of the names. -/
def sorted : List Builtin := registry.mergeSort fun a b => a.name ≤ b.name

end Builtin

end ScriptValues
