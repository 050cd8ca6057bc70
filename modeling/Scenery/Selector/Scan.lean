import Scenery.Selector.Literal
import Scenery.Selector.Name
import Scenery.Selector.Numeral
import Scenery.Selector.Token

/-!
# Scanning

Selector text is cut into tokens from left to right.  Comments stand between
tokens and leave no trace; every other text makes some token, so scanning never
fails.  Main statements: each token uses up at least one character, and the end
of the text is marked once, by the last token.
-/

namespace Scenery.Selector.Token

/-- What stands behind the end of a comment; an open comment takes all. -/
def dropComment : List Char → List Char
  | [] => []
  | '*' :: '/' :: rest => rest
  | _ :: rest => dropComment rest

theorem dropComment_length_le (cs : List Char) :
    (dropComment cs).length ≤ cs.length := by
  fun_induction dropComment cs with
  | case1 => simp
  | case2 rest =>
      simp only [List.length_cons]
      omega
  | case3 c rest _ ih =>
      simp only [List.length_cons]
      omega

/-- Drop the comments at the start of the text. -/
def dropComments : List Char → List Char
  | '/' :: '*' :: rest => dropComments (dropComment rest)
  | cs => cs
  termination_by cs => cs.length
  decreasing_by
    have := dropComment_length_le rest
    simp only [List.length_cons]
    omega

theorem dropComments_length_le (cs : List Char) :
    (dropComments cs).length ≤ cs.length := by
  fun_induction dropComments cs with
  | case1 rest ih =>
      have := dropComment_length_le rest
      simp only [List.length_cons]
      omega
  | case2 => simp

/-- A literal behind its opening quote. -/
def readString (quote : Char) (cs : List Char) : Token × List Char :=
  match Literal.read quote cs with
  | (some text, left) => (string (String.ofList text), left)
  | (none, left) => (badString, left)

/-- A name, and the parenthesis behind it that makes it a function. -/
def readNamed (cs : List Char) : Token × List Char :=
  match Name.read cs with
  | (name, '(' :: left) => (function (String.ofList name), left)
  | (name, left) => (ident (String.ofList name), left)

/-- A numeral with its unit: a name, or else a percent sign. -/
def readNumber (cs : List Char) : Token × List Char :=
  let (numeral, behind) := Numeral.read cs
  if startsName behind then
    (number (String.ofList (numeral ++ (Name.read behind).1)), (Name.read behind).2)
  else
    match behind with
    | '%' :: left => (number (String.ofList (numeral ++ ['%'])), left)
    | _ => (number (String.ofList numeral), behind)

/-- The token that starts with the character `c`, and what is left behind it. -/
def readToken (c : Char) (rest : List Char) : Token × List Char :=
  if isBlank c then
    (whitespace, rest.dropWhile isBlank)
  else if c = '"' ∨ c = '\'' then
    readString c rest
  else if c = '#' ∧ startsHash rest then
    (hash (String.ofList (Name.read rest).1), (Name.read rest).2)
  else if startsNumber (c :: rest) then
    readNumber (c :: rest)
  else if startsName (c :: rest) then
    readNamed (c :: rest)
  else
    (delim c, rest)

/-- The next token and what is left, or nothing at the end of the text. -/
def next? (cs : List Char) : Option (Token × List Char) :=
  match dropComments cs with
  | [] => none
  | c :: rest => some (readToken c rest)

theorem readString_length_le (quote : Char) (cs : List Char) :
    (readString quote cs).2.length ≤ cs.length := by
  have hread := Literal.read_length_le quote cs
  fun_cases readString quote cs with
  | case1 text left heq =>
      rw [heq] at hread
      exact hread
  | case2 left heq =>
      rw [heq] at hread
      exact hread

theorem readNamed_length_lt
    {cs : List Char} (h : startsName cs = true) :
    (readNamed cs).2.length < cs.length := by
  have hname : (Name.read cs).2.length < cs.length := by
    obtain ⟨c, rest, hcs, hfirst⟩ := exists_of_startsName h
    rw [hcs]
    exact Name.read_length_lt hfirst
  fun_cases readNamed cs with
  | case1 name left hread =>
      rw [hread] at hname
      exact Nat.lt_of_succ_lt hname
  | case2 name left _ hread =>
      rw [hread] at hname
      exact hname

theorem readNumber_length_lt
    {cs : List Char} (h : startsNumber cs = true) :
    (readNumber cs).2.length < cs.length := by
  have hnumeral := Numeral.read_length_lt h
  fun_cases readNumber cs with
  | case1 numeral behind hread hname =>
      rw [hread] at hnumeral
      exact Nat.lt_of_le_of_lt (Name.read_length_le behind) hnumeral
  | case2 numeral left hread hname =>
      rw [hread] at hnumeral
      exact Nat.lt_of_succ_lt hnumeral
  | case3 numeral behind hread hname _ =>
      rw [hread] at hnumeral
      exact hnumeral

theorem readToken_length_lt (c : Char) (rest : List Char) :
    (readToken c rest).2.length < (c :: rest).length := by
  simp only [readToken]
  split
  · have := (List.dropWhile_sublist isBlank (l := rest)).length_le
    simp only [List.length_cons]
    omega
  · split
    · have := readString_length_le c rest
      simp only [List.length_cons]
      omega
    · split
      · have := Name.read_length_le rest
        simp only [List.length_cons]
        omega
      · split
        · rename_i hnumber
          exact readNumber_length_lt hnumber
        · split
          · rename_i hname
            exact readNamed_length_lt hname
          · simp

/-- Every token uses up at least one character. -/
theorem next?_length_lt
    {cs left : List Char} {token : Token} (h : next? cs = some (token, left)) :
    left.length < cs.length := by
  have hle := dropComments_length_le cs
  unfold next? at h
  split at h
  · simp at h
  · rename_i c rest hdrop
    have hlt := readToken_length_lt c rest
    simp only [Option.some.injEq] at h
    simp only [h, hdrop] at hlt hle
    omega

/-- The tokens of a text, ended by `eof`. -/
def scan (cs : List Char) : List Token :=
  match _h : next? cs with
  | none => [eof]
  | some (token, left) => token :: scan left
  termination_by cs.length
  decreasing_by exact next?_length_lt _h

/-- The tokens of a selector, ended by `eof`. -/
def ofText (selector : String) : List Token :=
  scan selector.toList

theorem scan_of_next?_eq_none
    {cs : List Char} (h : next? cs = none) :
    scan cs = [eof] := by
  rw [scan]
  split <;> simp_all

theorem scan_of_next?_eq_some
    {cs left : List Char} {token : Token} (h : next? cs = some (token, left)) :
    scan cs = token :: scan left := by
  rw [scan]
  split <;> simp_all

theorem scan_nil : scan [] = [eof] :=
  scan_of_next?_eq_none (by simp [next?, dropComments])

/-- No token that is read before the end of the text marks the end. -/
theorem readToken_ne_eof (c : Char) (rest : List Char) :
    (readToken c rest).1 ≠ eof := by
  simp only [readToken, readString, readNumber, readNamed]
  repeat' split
  all_goals simp

theorem next?_ne_eof {cs left : List Char} {token : Token}
    (h : next? cs = some (token, left)) : token ≠ eof := by
  unfold next? at h
  split at h
  · cases h
  · rename_i c more _
    have hne := readToken_ne_eof c more
    rwa [Option.some.inj h] at hne

theorem length_scan_le (cs : List Char) : (scan cs).length ≤ cs.length + 1 := by
  fun_induction scan cs with
  | case1 => simp
  | case2 cs token left hnext ih =>
      have := next?_length_lt hnext
      rw [List.length_cons]
      omega

/-- The end of the text is marked once, by the last token. -/
theorem scan_eq_append_eof (cs : List Char) :
    ∃ tokens, scan cs = tokens ++ [eof] ∧ eof ∉ tokens := by
  fun_induction scan cs with
  | case1 => exact ⟨[], rfl, List.not_mem_nil⟩
  | case2 cs token left hnext ih =>
      obtain ⟨tokens, hscan, hnone⟩ := ih
      refine ⟨token :: tokens, by rw [hscan, List.cons_append], ?_⟩
      rw [List.mem_cons, not_or]
      exact ⟨(next?_ne_eof hnext).symm, hnone⟩

end Scenery.Selector.Token
