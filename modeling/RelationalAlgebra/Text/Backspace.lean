import RelationalAlgebra.Text.Cluster

/-!
# Backspaces in text

A backspace erases the cluster before it. Where nothing is left to erase it does nothing. The sizes
of clusters are remembered in one byte each, so of a cluster of 256 bytes or more only the end is
erased, as much as remains of its size modulo 256.
-/
namespace RelationalAlgebra.Text

/-- A text that is being typed: its characters, the last first, and the sizes of its clusters in
bytes, the last first. -/
structure Typed where
  text : List Char
  sizes : List Nat
  deriving DecidableEq, Repr

def byteCount (cs : List Char) : Nat := cs.foldr (fun c n => c.utf8Size + n) 0

/-- A text without the first of its characters, as many as fit into some bytes. -/
def dropBytes (n : Nat) : List Char → List Char
  | [] => []
  | c :: cs => if c.utf8Size ≤ n then dropBytes (n - c.utf8Size) cs else c :: cs

namespace Typed

/-- Types a cluster. -/
def type (t : Typed) (cluster : List Char) : Typed :=
  if cluster = ['\x08'] then
    match t.sizes with
    | [] => t
    | n :: sizes => ⟨dropBytes n t.text, sizes⟩
  else ⟨cluster.reverse ++ t.text, byteCount cluster % 256 :: t.sizes⟩

end Typed

/-- What is left of a text after its backspaces. Where the remembered size of a cluster of 256 bytes
or more ends inside a character, a line editor fails; here the character is kept. -/
def erase (s : String) : String :=
  String.ofList ((clusters s.toList).foldl Typed.type ⟨[], []⟩).text.reverse

end RelationalAlgebra.Text
