/-
Lines of a byte stream.  A line ends at a line feed, which is dropped with a carriage return
before it; bytes behind the last line feed are a line too.  Clean lines that are written with
a line feed behind each are read back one by one.
-/

import Mathlib.Data.List.Basic

namespace Lines

def lineFeed : UInt8 := 10
def carriageReturn : UInt8 := 13

/-- A line without the carriage return at its end. -/
def dropReturn (line : List UInt8) : List UInt8 :=
  if line.getLast? = some carriageReturn then line.dropLast else line

/-- The lines of a stream, some bytes of the first of which have been seen. -/
def readFrom (seen : List UInt8) : List UInt8 → List (List UInt8)
  | [] => if seen = [] then [] else [seen]
  | byte :: rest =>
      if byte = lineFeed then dropReturn seen :: readFrom [] rest
      else readFrom (seen ++ [byte]) rest

def read (bytes : List UInt8) : List (List UInt8) := readFrom [] bytes

def write (lines : List (List UInt8)) : List UInt8 := lines.flatMap fun line => line ++ [lineFeed]

/-- Nothing in the line ends it, and nothing at its end is dropped. -/
structure Clean (line : List UInt8) : Prop where
  inside : lineFeed ∉ line
  last : line.getLast? ≠ some carriageReturn

theorem readFrom_line {seen line : List UInt8} (inside : lineFeed ∉ line) (rest : List UInt8) :
    readFrom seen (line ++ lineFeed :: rest) = dropReturn (seen ++ line) :: read rest := by
  induction line generalizing seen with
  | nil =>
      rw [List.nil_append, List.append_nil, readFrom, if_pos rfl]
      rfl
  | cons byte line ih =>
      have other : byte ≠ lineFeed := fun same => inside (same ▸ List.mem_cons_self)
      rw [List.cons_append, readFrom, if_neg other,
        ih fun member => inside (List.mem_cons_of_mem _ member), List.append_assoc]
      rfl

theorem read_write {lines : List (List UInt8)} (clean : ∀ line ∈ lines, Clean line) :
    read (write lines) = lines := by
  induction lines with
  | nil => rfl
  | cons line lines ih =>
      have first := clean line List.mem_cons_self
      have written : write (line :: lines) = line ++ lineFeed :: write lines := by
        unfold write
        rw [List.flatMap_cons, List.append_assoc]
        rfl
      rw [written, read, readFrom_line first.inside, List.nil_append,
        ih fun other member => clean other (List.mem_cons_of_mem _ member), dropReturn,
        if_neg first.last]

end Lines
