/-!
A place in a text: how many bytes lie before it and which characters come after it.
-/
namespace CommandChain.Selector

def byteLength : List Char → Nat
  | [] => 0
  | c :: rest => c.utf8Size + byteLength rest

structure Cursor where
  offset : Nat
  rest : List Char
  deriving DecidableEq, Repr

namespace Cursor

def start (text : String) : Cursor := ⟨0, text.toList⟩

def skipWhile (p : Char → Bool) (c : Cursor) : Cursor :=
  ⟨c.offset + byteLength (c.rest.takeWhile p), c.rest.dropWhile p⟩

def run (p : Char → Bool) (c : Cursor) : String := String.ofList (c.rest.takeWhile p)

def next (c : Cursor) : Cursor :=
  match c.rest with
  | [] => c
  | char :: rest => ⟨c.offset + char.utf8Size, rest⟩

theorem skipWhile_length_le (c : Cursor) (p : Char → Bool) :
    (c.skipWhile p).rest.length ≤ c.rest.length :=
  (List.dropWhile_suffix p).length_le

theorem next_length_le (c : Cursor) : c.next.rest.length ≤ c.rest.length := by
  unfold next
  split <;> simp_all

theorem next_length_lt {c : Cursor} {char : Char} {rest : List Char}
    (shape : c.rest = char :: rest) : c.next.rest.length < c.rest.length := by
  simp [next, shape]

/-- The cursors at or after a place. -/
abbrev Later (c : Cursor) := { d : Cursor // d.rest.length ≤ c.rest.length }

/-- Past a run of characters, with the proof that it is no earlier. -/
def past (p : Char → Bool) (c : Cursor) : Later c := ⟨c.skipWhile p, c.skipWhile_length_le p⟩

end Cursor
end CommandChain.Selector
