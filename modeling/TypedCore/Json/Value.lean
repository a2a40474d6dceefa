import TypedCore.Json.Token

/-!
# JSON values

A value is put together from tokens with a stack of the arrays and objects
that are still open, so no text is nested too deeply.

Records are read by `Value.fields?`: an object names the fields of a
record, an array lists them in order.
-/

namespace TypedCore.Json

/-- A value. Numbers and strings are known as far as their tokens are. -/
inductive Value where
  | null
  | bool (b : Bool)
  | number (natural : Option Nat)
  | string (text : Option String)
  | array (items : List Value)
  | object (entries : List (Option String × Value))

/-! ## Putting values together -/

/-- An array or object that is still open; what it has so far is in reverse. -/
inductive Frame where
  | array (items : List Value)
  | object (entries : List (Option String × Value))
  /-- An object with a key that has no value yet. -/
  | member (entries : List (Option String × Value)) (key : Option String)

/-- What may come next. -/
inductive Awaiting where
  | value
  /-- A value, or the end of an empty array. -/
  | valueOrEnd
  | key
  /-- A key, or the end of an empty object. -/
  | keyOrEnd
  | colon
  /-- A comma or a closing bracket. -/
  | more
  /-- Nothing: the value is complete. -/
  | nothing (result : Value)

/-- A value under construction. -/
structure Builder where
  stack : List Frame := []
  awaiting : Awaiting := .value

namespace Builder

/-- Puts a complete value where it belongs. -/
def complete (v : Value) : List Frame → Option Builder
  | [] => some ⟨[], .nothing v⟩
  | .array items :: rest => some ⟨.array (v :: items) :: rest, .more⟩
  | .member entries key :: rest => some ⟨.object ((key, v) :: entries) :: rest, .more⟩
  | .object _ :: _ => none

def takeValue (stack : List Frame) : Token → Option Builder
  | .null => complete .null stack
  | .bool b => complete (.bool b) stack
  | .number n => complete (.number n) stack
  | .string s => complete (.string s) stack
  | .openArray => some ⟨.array [] :: stack, .valueOrEnd⟩
  | .openObject => some ⟨.object [] :: stack, .keyOrEnd⟩
  | _ => none

def step (b : Builder) (t : Token) : Option Builder :=
  match b.awaiting, t, b.stack with
  | .valueOrEnd, .closeArray, .array [] :: rest => complete (.array []) rest
  | .value, t, stack | .valueOrEnd, t, stack => takeValue stack t
  | .keyOrEnd, .closeObject, .object [] :: rest => complete (.object []) rest
  | .key, .string key, .object entries :: rest
  | .keyOrEnd, .string key, .object entries :: rest => some ⟨.member entries key :: rest, .colon⟩
  | .colon, .colon, stack => some ⟨stack, .value⟩
  | .more, .comma, .array items :: rest => some ⟨.array items :: rest, .value⟩
  | .more, .comma, .object entries :: rest => some ⟨.object entries :: rest, .key⟩
  | .more, .closeArray, .array items :: rest => complete (.array items.reverse) rest
  | .more, .closeObject, .object entries :: rest => complete (.object entries.reverse) rest
  | _, _, _ => none

end Builder

namespace Value

/-- The value that some tokens are. -/
def ofTokens? (tokens : List Token) : Option Value :=
  match tokens.foldlM Builder.step {} with
  | some ⟨_, .nothing v⟩ => some v
  | _ => none

def parse? (text : String) : Option Value := (Token.scan text).bind ofTokens?

/-! ## Reading values -/

def bool? : Value → Option Bool
  | bool b => some b
  | _ => none

/-- A plain natural number below a bound. -/
def natBelow? (bound : Nat) : Value → Option Nat
  | number (some n) => if n < bound then some n else none
  | _ => none

/-- A choice among named alternatives: its name, or an object that gives it no value. -/
def choice? : Value → Option String
  | string s => s
  | object [(key, null)] => key
  | _ => none

def array? : Value → Option (List Value)
  | array items => some items
  | _ => none

/-- A value that may be missing in the form of `null`. -/
def nullable? (read : Value → Option α) : Value → Option (Option α)
  | null => some none
  | v => (read v).map some

/-- The fields of a record with given names, in the order of the names. An object
has each of them at most once, and others are passed over; an array has them in
order, and may end early. -/
def fields? (names : List String) : Value → Option (List (Option Value))
  | array items => if items.length ≤ names.length then some (names.mapIdx fun i _ => items[i]?) else none
  | object entries =>
    let keys := entries.map Prod.fst
    if keys.all Option.isSome && names.all (fun name => keys.count (some name) ≤ 1) then
      some (names.map fun name => (entries.find? fun e => e.1 == some name).map Prod.snd)
    else none
  | _ => none

end Value

/-- A field that has a default. -/
def orDefault (d : α) (read : Value → Option α) : Option Value → Option α
  | none => some d
  | some v => read v

end TypedCore.Json
