import TagTree.Json.Error

/-!
# Scanning JSON: space, keywords, brackets

A reader takes a text and gives a value and the text left over, or the first problem. This file
holds the readers for what stands between values.

## Main definitions

* `Json.Reader`: the type of readers.
* `Json.skipSpace`, `Json.keyword`: space and fixed words.
* `Json.nextItem`, `Json.endArray`, `Json.items`: the items of an array.
* `Json.nextMember`, `Json.colon`, `Json.members`: the members of an object.
* `Json.whole`: a value with nothing but space after it.
-/

namespace TagTree.Json

/-- A reader of values of type `α`: the value and the text left over, or the first problem. -/
abbrev Reader (α : Type) := Text → Except Error (α × Text)

variable {α κ σ : Type}

/-! ### Space and words -/

/-- The characters between tokens: space, newline, tab and carriage return. -/
def isSpace (c : Char) : Bool :=
  c == ' ' || c == '\n' || c == '\t' || c == '\r'

/-- The text from its first character on that is not space. -/
def skipSpace (s : Text) : Text :=
  s.dropWhile isSpace

/-- Reads the rest of a fixed word, of which the first letter has been read. -/
def keyword : (word : Text) → Reader Unit
  | [], s => .ok ((), s)
  | _ :: _, [] => .error .unfinished
  | c :: word, d :: s => if c = d then keyword word s else .error .malformed

/-- Reads the colon between a key and its value. -/
def colon : Reader Unit :=
  fun s => match skipSpace s with
    | [] => .error .unfinished
    | c :: rest => if c = ':' then .ok ((), rest) else .error .malformed

/-! ### Arrays -/

/-- Looks for the next item of an array: the text at which it starts, or nothing at the closing
bracket, which is not read. Items but the `first` are preceded by a comma. -/
def nextItem (first : Bool) (s : Text) : Except Error (Option Text) :=
  match skipSpace s with
  | [] => .error .unfinished
  | c :: rest =>
    if c = ']' then .ok none
    else if first then .ok (some (c :: rest))
    else if c = ',' then
      match skipSpace rest with
      | [] => .error .unfinished
      | d :: rest => if d = ']' then .error .malformed else .ok (some (d :: rest))
    else .error .malformed

/-- Reads the closing bracket of an array whose items have all been read. -/
def endArray : Reader Unit :=
  fun s => match skipSpace s with
    | [] => .error .unfinished
    | c :: rest => if c = ']' then .ok ((), rest) else .error .malformed

/-- Reads the items of an array, at most `fuel` of them, and the closing bracket. -/
def itemsWithin (item : Reader α) : (fuel : Nat) → (first : Bool) → Reader (List α)
  | 0, _, _ => .error .unfinished
  | fuel + 1, first, s => do
    match ← nextItem first s with
    | none =>
      let (_, rest) ← endArray s
      return ([], rest)
    | some s =>
      let (a, s) ← item s
      let (as, s) ← itemsWithin item fuel false s
      return (a :: as, s)

/-- Reads the items of an array and the closing bracket. There are fewer items than characters. -/
def items (item : Reader α) : Reader (List α) :=
  fun s => itemsWithin item (s.length + 1) true s

/-! ### Objects -/

/-- Looks for the next member of an object: the text after the opening quote of its key, or nothing
at the closing brace, which is not read. Members but the `first` are preceded by a comma. -/
def nextMember (first : Bool) (s : Text) : Except Error (Option Text) :=
  match skipSpace s with
  | [] => .error .unfinished
  | c :: rest =>
    if c = '\x7d' then .ok none
    else if first then
      if c = '"' then .ok (some rest) else .error .malformed
    else if c = ',' then
      match skipSpace rest with
      | [] => .error .unfinished
      | d :: rest => if d = '"' then .ok (some rest) else .error .malformed
    else .error .malformed

/-- Reads the closing brace of an object whose members have all been read. -/
def endObject : Reader Unit :=
  fun s => match skipSpace s with
    | [] => .error .unfinished
    | c :: rest => if c = '\x7d' then .ok ((), rest) else .error .malformed

/-- Reads the members of an object, at most `fuel` of them, and the closing brace. `key` reads a
key after its opening quote, and `member` goes on after the key, in front of the colon. -/
def membersWithin (key : Reader κ) (member : σ → κ → Reader σ) :
    (fuel : Nat) → (first : Bool) → σ → Reader σ
  | 0, _, _, _ => .error .unfinished
  | fuel + 1, first, state, s => do
    match ← nextMember first s with
    | none =>
      let (_, rest) ← endObject s
      return (state, rest)
    | some s =>
      let (name, s) ← key s
      let (state, s) ← member state name s
      membersWithin key member fuel false state s

/-- Reads the members of an object and the closing brace. There are fewer members than
characters. -/
def members (key : Reader κ) (member : σ → κ → Reader σ) (state : σ) : Reader σ :=
  fun s => membersWithin key member (s.length + 1) true state s

/-! ### Whole texts -/

/-- Reads a value and makes sure that only space follows. -/
def whole (read : Reader α) (s : Text) : Except Error α := do
  let (a, rest) ← read s
  match skipSpace rest with
  | [] => return a
  | _ :: _ => .error .malformed

end TagTree.Json
