import TagTree.Json.Skip

/-!
# Values of a wanted type

Readers for the simple types of values. A value of another type is reported with what was found;
for that a number or a string is read to its end, so that a problem inside it comes first, while
an array or an object is reported at its bracket.

## Main definitions

* `Json.mismatched`: the report of a value of another type.
* `Json.readNatural`, `Json.readBool`, `Json.readText`, `Json.readList`, `Json.readPair`: values of
  a wanted type.
* `Json.readStruct`: a value with named fields, as an object or as an array.
-/

namespace TagTree.Json

variable {α σ : Type}

/-- What there is to report about a number of the wrong type. -/
def Number.found : Number → Found
  | .integer i => .integer i
  | .floating x => .floating x

/-- What the value at the start of a text is, read as far as a report needs it. -/
def findValue (s : Text) : Except Error Found :=
  match s with
  | [] => .error .unfinished
  | c :: rest =>
    if c = 'n' then (keyword ['u', 'l', 'l'] rest).map fun _ => .null
    else if c = 't' then (keyword ['r', 'u', 'e'] rest).map fun _ => .boolean true
    else if c = 'f' then (keyword ['a', 'l', 's', 'e'] rest).map fun _ => .boolean false
    else if c = '-' then (readNumber true rest).map fun n => n.1.found
    else if c.isDigit then (readNumber false (c :: rest)).map fun n => n.1.found
    else if c = '"' then (readString rest).map fun t => .string t.1
    else if c = '[' then .ok .sequence
    else if c = '\x7b' then .ok .map
    else .error .malformed

/-- The report that the value at the start of a text is not of the wanted type. -/
def mismatched (wanted : Wanted) (s : Text) : Except Error α := do
  let found ← findValue s
  .error (.mismatch (.invalidType found wanted))

/-! ### Simple values -/

/-- A number where a natural number is wanted. All natural numbers of 64 bits are accepted, and no
others are read as integers. -/
def natural (n : Number) : Except Error UInt64 :=
  match n with
  | .integer (.ofNat i) => .ok (UInt64.ofNat i)
  | .integer (.negSucc i) => .error (.mismatch (.invalidValue (.negSucc i) .natural))
  | .floating x => .error (.mismatch (.invalidType (.floating x) .natural))

/-- Reads a natural number of 64 bits. -/
def readNatural : Reader UInt64 :=
  fun s => match skipSpace s with
    | [] => .error .unfinished
    | c :: rest =>
      if c = '-' then do
        let (n, rest) ← readNumber true rest
        return (← natural n, rest)
      else if c.isDigit then do
        let (n, rest) ← readNumber false (c :: rest)
        return (← natural n, rest)
      else mismatched .natural (c :: rest)

/-- Reads a truth value. -/
def readBool : Reader Bool :=
  fun s => match skipSpace s with
    | [] => .error .unfinished
    | c :: rest =>
      if c = 't' then do
        let (_, rest) ← keyword ['r', 'u', 'e'] rest
        return (true, rest)
      else if c = 'f' then do
        let (_, rest) ← keyword ['a', 'l', 's', 'e'] rest
        return (false, rest)
      else mismatched .boolean (c :: rest)

/-- Reads a string. -/
def readText : Reader Text :=
  fun s => match skipSpace s with
    | [] => .error .unfinished
    | c :: rest => if c = '"' then readString rest else mismatched .string (c :: rest)

/-! ### Arrays -/

/-- Reads an array of any number of items. -/
def readList (item : Reader α) : Reader (List α) :=
  fun s => match skipSpace s with
    | [] => .error .unfinished
    | c :: rest => if c = '[' then items item rest else mismatched .sequence (c :: rest)

/-- Reads an item that an array has to have, the one with that index. -/
def requiredItem (wanted : Wanted) (index : Nat) (item : Reader α) : Reader α :=
  fun s => do
    match ← nextItem (index == 0) s with
    | none => .error (.mismatch (.invalidLength index wanted))
    | some s => item s

/-- Reads an item that an array may end before, the one with that index. -/
def defaultItem (index : Nat) (item : Reader α) (default : α) : Reader α :=
  fun s => do
    match ← nextItem (index == 0) s with
    | none => return (default, s)
    | some s => item s

/-- Reads an array of two strings. -/
def readPair : Reader (Text × Text) :=
  fun s => match skipSpace s with
    | [] => .error .unfinished
    | c :: rest =>
      if c = '[' then do
        let (a, rest) ← requiredItem .pair 0 readText rest
        let (b, rest) ← requiredItem .pair 1 readText rest
        let (_, rest) ← endArray rest
        return ((a, b), rest)
      else mismatched .pair (c :: rest)

/-! ### Values with named fields -/

/-- Reads the value of a known field into `state`, unless the field has been read before. -/
def field (name : String) (seen : Option α) (read : Reader α) (store : α → σ) : Reader σ :=
  fun s =>
    match seen with
    | some _ => .error (.mismatch (.duplicateField name))
    | none => do
      let (_, s) ← colon s
      let (a, s) ← read s
      return (store a, s)

/-- Reads the value of an unknown field and leaves the state as it is. -/
def unknownField (state : σ) : Reader σ :=
  fun s => do
    let (_, s) ← colon s
    let (_, s) ← skipValue s
    return (state, s)

/-- A field that has to be there. -/
def requiredField (name : String) (seen : Option α) : Except Error α :=
  match seen with
  | some a => .ok a
  | none => .error (.mismatch (.missingField name))

/-- Reads a value with named fields: either an object, whose members `member` puts into a state
that `finish` makes the value of, or an array of the fields in order, read by `array`. -/
def readStruct (wanted : Wanted) (member : σ → Text → Reader σ) (start : σ)
    (finish : σ → Except Error α) (array : Reader α) : Reader α :=
  fun s => match skipSpace s with
    | [] => .error .unfinished
    | c :: rest =>
      if c = '[' then do
        let (a, rest) ← array rest
        let (_, rest) ← endArray rest
        return (a, rest)
      else if c = '\x7b' then do
        let (state, rest) ← members readString member start rest
        return (← finish state, rest)
      else mismatched wanted (c :: rest)

end TagTree.Json
