import TagTree.Json.Number
import TagTree.Json.Str

/-!
# Values that are not wanted

The value of an unknown member is read and dropped. It has to be well-formed at every depth, but
its numbers may be of any size and its strings may hold single surrogates.

## Main definitions

* `Json.skipValue`: reads a value of any kind.
-/

namespace TagTree.Json

/-- Reads a value with at most `depth` levels of nesting. -/
def skipWithin : (depth : Nat) → Reader Unit
  | 0, _ => .error .unfinished
  | depth + 1, s =>
    match skipSpace s with
    | [] => .error .unfinished
    | c :: rest =>
      if c = 'n' then keyword ['u', 'l', 'l'] rest
      else if c = 't' then keyword ['r', 'u', 'e'] rest
      else if c = 'f' then keyword ['a', 'l', 's', 'e'] rest
      else if c = '"' then skipString rest
      else if c = '-' then skipNumber rest
      else if c.isDigit then skipNumber (c :: rest)
      else if c = '[' then do
        let (_, rest) ← items (skipWithin depth) rest
        return ((), rest)
      else if c = '\x7b' then
        members skipString (fun _ _ s => do
          let (_, s) ← colon s
          skipWithin depth s) () rest
      else .error .malformed

/-- Reads a value of any kind and any depth. Every level takes a character. -/
def skipValue : Reader Unit :=
  fun s => skipWithin (s.length + 1) s

end TagTree.Json
