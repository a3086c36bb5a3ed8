import ChargePoint.Parse.Tokens
import ChargePoint.Numerals

/-!
# JSON objects

The texts this module is about are all the JSON objects whose members are strings without
escapes, non-negative integers, objects, and arrays of objects, blanks included. `Json` is
their concrete syntax: one indexed family for the four kinds of phrase, with the blanks where
JSON allows them, so that `Json.text` produces every such text.

What the parser makes of a phrase (`Reads.lean`) depends on structural properties of the
phrase alone:

* `early`: a `]` inside a name or a string before the first array;
* `fill`: the counters stay within the tables. They are not just the numbers of members:
  after a container that ends badly the parser does not count the comma, and the next
  member goes into the *same* entry, whose `subPayload_len` is not reset;
* `isAfter`: the phrase leaves the parser in the state in which a comma is counted. A string
  does, a container does if its last member does; an integer does not, nor does an empty
  container.
-/

set_option autoImplicit false

namespace ChargePoint

open CStr Reading

/-! ## Syntax -/

/-- White space between two tokens. -/
structure Blank where
  text : List Char
  blank : IsBlank text

def Blank.none : Blank := ⟨[], fun _ h => absurd h List.not_mem_nil⟩

/-- A property name: no quote, and room for it in `property_name[60]`. -/
structure Name where
  chars : List Char
  noQuote : '"' ∉ chars
  len : chars.length ≤ 59

/-- A string without escapes. -/
structure Str where
  chars : List Char
  plain : ∀ c ∈ chars, c ≠ '"' ∧ c ≠ '\\'

/-- A non-negative integer. -/
structure Numeral where
  digits : List Char
  isDigit : Digits digits
  ne_nil : digits ≠ []

/-- The kinds of phrase: a member's value, an object, the members between its braces, the
elements between the brackets of an array. -/
inductive Phrase
  | val | obj | members | elems

/-- The phrases, with their blanks. -/
inductive Json : Phrase → Type
  | str (w : Blank) (s : Str) : Json .val
  | num (w : Blank) (n : Numeral) : Json .val
  | nested (o : Json .obj) : Json .val
  | arr (w : Blank) (es : Json .elems) (w' : Blank) : Json .val
  | braces (w : Blank) (ms : Json .members) (w' : Blank) : Json .obj
  | noMember : Json .members
  | member (w : Blank) (name : Name) (w₁ : Blank) (v : Json .val) (w₂ : Blank)
      (rest : Json .members) : Json .members
  | noElem : Json .elems
  | elem (o : Json .obj) (w : Blank) (rest : Json .elems) : Json .elems

namespace Json

/-- Nothing follows. -/
def isEnd : {k : Phrase} → Json k → Bool
  | _, .noMember | _, .noElem => true
  | _, _ => false

/-- The text of a phrase. -/
def text : {k : Phrase} → Json k → List Char
  | _, .str w s => w.text ++ '"' :: (s.chars ++ ['"'])
  | _, .num w n => w.text ++ n.digits
  | _, .nested o => o.text
  | _, .arr w es w' => w.text ++ '[' :: (es.text ++ (w'.text ++ [']']))
  | _, .braces w ms w' => w.text ++ '{' :: (ms.text ++ (w'.text ++ ['}']))
  | _, .noMember => []
  | _, .member w name w₁ v w₂ rest =>
    w.text ++ '"' :: ((name.chars ++ ['"']) ++ ((w₁.text ++ [':']) ++
      (v.text ++ if rest.isEnd then [] else (w₂.text ++ [',']) ++ rest.text)))
  | _, .noElem => []
  | _, .elem o w rest => o.text ++ if rest.isEnd then [] else (w.text ++ [',']) ++ rest.text

/-! ## Structural properties -/

/-- How deep objects and arrays are nested. -/
def levels : {k : Phrase} → Json k → Nat
  | _, .str .. | _, .num .. | _, .noMember | _, .noElem => 0
  | _, .nested o => o.levels
  | _, .arr _ es _ => es.levels + 1
  | _, .braces _ ms _ => ms.levels + 1
  | _, .member _ _ _ v _ rest => max v.levels rest.levels
  | _, .elem o _ rest => max o.levels rest.levels

/-- An array is opened. -/
def hasArr : {k : Phrase} → Json k → Bool
  | _, .str .. | _, .num .. | _, .noMember | _, .noElem => false
  | _, .arr .. => true
  | _, .nested o => o.hasArr
  | _, .braces _ ms _ => ms.hasArr
  | _, .member _ _ _ v _ rest => v.hasArr || rest.hasArr
  | _, .elem o _ rest => o.hasArr || rest.hasArr

/-- A `]` stands in a name or a string before the first array. -/
def early : {k : Phrase} → Json k → Bool
  | _, .str _ s => s.chars.contains ']'
  | _, .nested o => o.early
  | _, .braces _ ms _ => ms.early
  | _, .member _ name _ v _ rest =>
    name.chars.contains ']' || v.early || !v.hasArr && rest.early
  | _, .num .. | _, .arr .. | _, .noMember | _, .noElem | _, .elem .. => false

/-- The phrase leaves the parser behind a string: the last leaf is one. -/
def isAfter : {k : Phrase} → Json k → Bool
  | _, .str .. => true
  | _, .num .. | _, .noMember | _, .noElem => false
  | _, .nested o => o.isAfter
  | _, .arr _ es _ => es.isAfter
  | _, .braces _ ms _ => ms.isAfter
  | _, .member _ _ _ v _ rest => if rest.isEnd then v.isAfter else rest.isAfter
  | _, .elem o _ rest => if rest.isEnd then o.isAfter else rest.isAfter

/-- The state after a member's value. -/
def stepAfter : Json .val → PayloadStep
  | .str .. => .after
  | .num .. => .value
  | .nested o => if o.isAfter then .after else .key
  | .arr _ es _ => if es.isAfter then .after else .key

/-- The comma after this value is counted: the value is not a container that ends badly. -/
def counted (v : Json .val) : Bool := v.stepAfter ≠ .key

/-- Every array element but the last ends well. -/
def aligned : {k : Phrase} → Json k → Bool
  | _, .str .. | _, .num .. | _, .noMember | _, .noElem => true
  | _, .nested o => o.aligned
  | _, .arr _ es _ => es.aligned
  | _, .braces _ ms _ => ms.aligned
  | _, .member _ _ _ v _ rest => v.aligned && rest.aligned
  | _, .elem o _ rest => o.aligned && (rest.isEnd || o.isAfter) && rest.aligned

/-- The counter after a phrase, if no table is full on the way. Of a value or an object: the
`subPayload_len` of its entry, which was `e`. Of members or elements: the index of the entry
in use, which was `c`, in a table of `cap` entries. -/
def fill : {k : Phrase} → Json k → (cap c e : Nat) → Option Nat
  | _, .str .., _, _, e | _, .num .., _, _, e => some e
  | _, .nested o, _, _, e => o.fill 0 0 e
  | _, .arr _ es _, _, _, e => es.fill subPayloadCap e 0
  | _, .braces _ ms _, _, _, e => ms.fill subPayloadCap e 0
  | _, .noMember, _, c, _ | _, .noElem, _, c, _ => some c
  | _, .member _ _ _ v _ rest, cap, c, e =>
    (v.fill 0 0 e).bind fun e' =>
      if rest.isEnd then some c
      else if v.counted then if c + 1 < cap then rest.fill cap (c + 1) 0 else none
      else rest.fill cap c e'
  | _, .elem o _ rest, cap, c, e =>
    (o.fill 0 0 e).bind fun _ =>
      if rest.isEnd then some c
      else if c + 1 < cap then rest.fill cap (c + 1) 0 else none

/-- What a value puts into its entry at level `d`. -/
def entry (d : Nat) : Json .val → Payload → Payload
  | .str _ s, p => { p with propertyContants := stored s.chars }
  | .num _ n, p => { p with propertyContants := stored n.digits }
  | .nested _, p | .arr .., p => { p with subPayload := .level (d + 1) }

/-- The members in order. -/
def list : Json .members → List (Name × Json .val)
  | .noMember => []
  | .member _ name _ v _ rest => (name, v) :: rest.list

end Json

end ChargePoint
