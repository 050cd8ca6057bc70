import Scenery.Selector.Escape

/-!
# Names

The longest name at the start of a text, with its escapes resolved.  Main
statement: what is left is never longer than what was given, and is shorter
when the text starts with a name character or an escape.
-/

namespace Scenery.Selector.Name

/-- Read name characters and escapes as far as they go. -/
def read : List Char → List Char × List Char
  | [] => ([], [])
  | c :: rest =>
    if isNameChar c then
      let (name, left) := read rest
      (c :: name, left)
    else if startsEscape (c :: rest) then
      let (name, left) := read (Escape.read rest).2
      ((Escape.read rest).1 :: name, left)
    else
      ([], c :: rest)
  termination_by cs => cs.length
  decreasing_by
    · simp
    · have := Escape.read_length_le rest
      simp only [List.length_cons]
      omega

@[simp] theorem read_nil : read [] = ([], []) := by
  simp [read]

theorem read_length_le (cs : List Char) :
    (read cs).2.length ≤ cs.length := by
  fun_induction read cs with
  | case1 => simp
  | case2 c rest _ name left hread ih =>
      simp only [hread, List.length_cons] at ih ⊢
      omega
  | case3 c rest _ _ name left hread ih =>
      have := Escape.read_length_le rest
      simp only [hread, List.length_cons] at ih ⊢
      omega
  | case4 => simp

theorem read_length_lt
    {c : Char} {rest : List Char}
    (h : isNameChar c = true ∨ startsEscape (c :: rest) = true) :
    (read (c :: rest)).2.length < (c :: rest).length := by
  have hname := read_length_le rest
  have hescaped := read_length_le (Escape.read rest).2
  have hrest := Escape.read_length_le rest
  unfold read
  split
  · simp only [List.length_cons]
    omega
  · split
    · simp only [List.length_cons]
      omega
    · simp_all

end Scenery.Selector.Name
