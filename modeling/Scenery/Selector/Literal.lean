import Scenery.Selector.Escape

/-!
# Quoted literals

A literal runs to its closing quote or to the end of the text.  A backslash
before a line feed joins two lines; any other backslash starts an escape.  A
bare line feed breaks the literal off, and is left in the text.  Main statement:
what is left is never longer than what was given.
-/

namespace Scenery.Selector.Literal

/--
Read behind an opening quote: the text of the literal, or nothing for a literal
that a line feed breaks off, and what is left.
-/
def read (quote : Char) : List Char → Option (List Char) × List Char
  | [] => (some [], [])
  | c :: rest =>
    if c = quote then
      (some [], rest)
    else if c = '\n' then
      (none, c :: rest)
    else if c = '\\' then
      match rest with
      | [] => (some [], [])
      | d :: behind =>
        if d = '\n' then
          read quote behind
        else
          let (text, left) := read quote (Escape.read (d :: behind)).2
          (text.map ((Escape.read (d :: behind)).1 :: ·), left)
    else
      let (text, left) := read quote rest
      (text.map (c :: ·), left)
  termination_by cs => cs.length
  decreasing_by
    · simp only [List.length_cons]
      omega
    · have := Escape.read_cons_length_lt d behind
      simp only [List.length_cons] at this ⊢
      omega
    · simp

theorem read_length_le (quote : Char) (cs : List Char) :
    (read quote cs).2.length ≤ cs.length := by
  fun_induction read quote cs with
  | case1 => simp
  | case2 => simp
  | case3 => simp
  | case4 => simp
  | case5 =>
      simp only [List.length_cons]
      omega
  | case6 d behind _ text left hread _ _ ih =>
      have := Escape.read_cons_length_lt d behind
      simp only [hread, List.length_cons] at ih this ⊢
      omega
  | case7 c rest _ _ _ text left hread ih =>
      simp only [hread, List.length_cons] at ih ⊢
      omega

end Scenery.Selector.Literal
