/-!
# Searching text

Where a text stands inside another: at its start, at its end, anywhere, or as
one of its words.  Words are what single spaces part, so two spaces in a row
part an empty word.  Main statements say each of these by concatenation.
-/

namespace Scenery.Text

/-- Whether the text starts with `needle`. -/
def startsWith (needle text : List Char) : Bool :=
  needle.isPrefixOf text

/-- Whether the text ends with `needle`. -/
def endsWith (needle text : List Char) : Bool :=
  needle.isSuffixOf text

/-- Whether the text holds `needle`. -/
def holds (needle : List Char) : List Char → Bool
  | [] => startsWith needle []
  | c :: rest => startsWith needle (c :: rest) || holds needle rest

/-- The parts of a text between single spaces. -/
def words : List Char → List (List Char)
  | [] => [[]]
  | c :: rest =>
    if c = ' ' then
      [] :: words rest
    else
      match words rest with
      | [] => [[c]]
      | word :: others => (c :: word) :: others

theorem startsWith_eq_true_iff (needle text : List Char) :
    startsWith needle text = true ↔ ∃ behind, text = needle ++ behind := by
  rw [startsWith, List.isPrefixOf_iff_prefix]
  exact ⟨fun ⟨behind, h⟩ => ⟨behind, h.symm⟩, fun ⟨behind, h⟩ => ⟨behind, h.symm⟩⟩

theorem endsWith_eq_true_iff (needle text : List Char) :
    endsWith needle text = true ↔ ∃ before, text = before ++ needle := by
  rw [endsWith, List.isSuffixOf_iff_suffix]
  exact ⟨fun ⟨before, h⟩ => ⟨before, h.symm⟩, fun ⟨before, h⟩ => ⟨before, h.symm⟩⟩

theorem holds_eq_true_iff (needle text : List Char) :
    holds needle text = true ↔ ∃ before behind, text = before ++ needle ++ behind := by
  induction text with
  | nil =>
      rw [holds, startsWith_eq_true_iff]
      constructor
      · rintro ⟨behind, h⟩
        exact ⟨[], behind, h⟩
      · rintro ⟨before, behind, h⟩
        simp only [List.nil_eq, List.append_eq_nil_iff] at h
        exact ⟨behind, by simp [h]⟩
  | cons c rest ih =>
      rw [holds, Bool.or_eq_true, startsWith_eq_true_iff, ih]
      constructor
      · rintro (⟨behind, h⟩ | ⟨before, behind, h⟩)
        · exact ⟨[], behind, h⟩
        · exact ⟨c :: before, behind, by simp [h]⟩
      · rintro ⟨before, behind, h⟩
        cases before with
        | nil => exact Or.inl ⟨behind, h⟩
        | cons d before =>
            simp only [List.cons_append, List.cons.injEq] at h
            exact Or.inr ⟨before, behind, h.2⟩

theorem words_ne_nil (text : List Char) : words text ≠ [] := by
  cases text with
  | nil => simp [words]
  | cons c rest =>
      simp only [words]
      split
      · simp
      · split <;> simp

theorem words_eq_splitOn (text : List Char) : words text = text.splitOn ' ' := by
  induction text with
  | nil => rw [words, List.splitOn_nil]
  | cons c rest ih =>
      rw [words, List.splitOn_cons_eq_if_modifyHead, ← ih]
      by_cases hc : c = ' '
      · rw [if_pos hc, if_pos (by simpa using hc)]
      · rw [if_neg hc, if_neg (by simpa using hc)]
        cases hwords : words rest with
        | nil => exact absurd hwords (words_ne_nil rest)
        | cons word others => rfl

/-- A word is found by going over the first space of the text as often as it takes. -/
theorem exists_append_of_mem_words {word text : List Char} (h : word ∈ words text) :
    ' ' ∉ word ∧ ∃ before behind, text = before ++ word ++ behind ∧
      (before = [] ∨ ∃ front, before = front ++ [' ']) ∧
      (behind = [] ∨ ∃ back, behind = ' ' :: back) := by
  rw [words_eq_splitOn] at h
  by_cases hspace : ' ' ∈ text
  · obtain ⟨front, back, htext, hfront⟩ := List.eq_append_cons_of_mem hspace
    rw [htext, List.splitOn_append_cons_self_of_not_mem hfront, ← words_eq_splitOn] at h
    rcases List.mem_cons.mp h with hword | hword
    · exact ⟨by rwa [hword], [], ' ' :: back, by simp [htext, hword], .inl rfl, .inr ⟨back, rfl⟩⟩
    · obtain ⟨hnone, before, behind, hback, hbefore, hbehind⟩ := exists_append_of_mem_words hword
      refine ⟨hnone, front ++ ' ' :: before, behind, by simp [htext, hback], .inr ?_, hbehind⟩
      rcases hbefore with hnil | ⟨start, hstart⟩
      · exact ⟨front, by rw [hnil]⟩
      · exact ⟨front ++ ' ' :: start, by simp [hstart]⟩
  · rw [List.splitOn_eq_singleton hspace, List.mem_singleton] at h
    exact ⟨by rwa [h], [], [], by simp [h], .inl rfl, .inl rfl⟩
  termination_by text.length
  decreasing_by
    simp only [htext, List.length_append, List.length_cons]
    omega

/-- A word holds no space, and ends at a space or at an end of the text on both sides. -/
theorem mem_words_iff (word text : List Char) :
    word ∈ words text ↔
      ' ' ∉ word ∧ ∃ before behind, text = before ++ word ++ behind ∧
        (before = [] ∨ ∃ front, before = front ++ [' ']) ∧
        (behind = [] ∨ ∃ back, behind = ' ' :: back) := by
  refine ⟨exists_append_of_mem_words, ?_⟩
  intro ⟨hword, before, behind, htext, hbefore, hbehind⟩
  have hfirst : word ∈ (word ++ behind).splitOn ' ' := by
    rcases hbehind with hnil | ⟨back, hback⟩
    · rw [hnil, List.append_nil, List.splitOn_eq_singleton hword]
      exact List.mem_singleton_self word
    · rw [hback, List.splitOn_append_cons_self_of_not_mem hword]
      exact List.mem_cons_self
  rw [words_eq_splitOn, htext, List.append_assoc]
  rcases hbefore with hnil | ⟨front, hfront⟩
  · rwa [hnil]
  · rw [hfront, List.append_assoc, List.singleton_append, List.splitOn_append_cons_self]
    exact List.mem_append_right _ hfirst

end Scenery.Text
