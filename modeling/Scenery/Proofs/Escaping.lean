import Mathlib.Data.List.TakeWhile
import Scenery.Proofs.Scanning
import Scenery.Proofs.Selecting

/-!
# Escaped names

Every name can be written in selector text, whatever characters it has: a name
character stands for itself, and escapes stand for all others.  The ways can be
mixed freely, since an escape takes in its own characters and no others.  So
every identifier can be asked for, and a query for it finds the nodes that have
it.
-/

namespace Scenery.Selector

/-- The ways to write one character of a name. -/
inductive Writes : Char → List Char → Prop where
  | plain {c : Char} (h : isNameChar c = true) : Writes c [c]
  | escaped {c : Char} (hhex : isHexDigit c = false) (hline : c ≠ '\n') : Writes c ['\\', c]
  /-- By its number, in one to six hexadecimal digits of either case, and one blank. -/
  | numbered {c blank : Char} {digits : List Char} (hne : digits ≠ []) (hlength : digits.length ≤ 6)
      (hhex : ∀ d ∈ digits, isHexDigit d = true) (hvalue : Escape.hexValue digits = c.toNat)
      (hnul : c ≠ '\x00') (hblank : isBlank blank = true) : Writes c ('\\' :: (digits ++ [blank]))

/-- A name and a text that writes it, each of its characters in one of the ways. -/
inductive Spells : List Char → List Char → Prop where
  | nil : Spells [] []
  | cons {c : Char} {name piece text : List Char} (first : Writes c piece)
      (rest : Spells name text) : Spells (c :: name) (piece ++ text)

/--
Whether a spelling begins like an identifier: with a name-start character or an escape, or
with a hyphen before a name-start character, another hyphen or an escape.
-/
def opensName : List Char → Bool
  | [] => false
  | c :: rest =>
    if c = '-' then rest.head?.any fun d => isNameStart d || d == '-' || d == '\\'
    else isNameStart c || c == '\\'

/-! ## Reading a spelling -/

theorem Escape.scalar_toNat {c : Char} (h : c ≠ '\x00') : Escape.scalar c.toNat = c := by
  have hzero : c.toNat ≠ 0 := by
    intro hzero
    apply h
    rw [← Char.ofNat_toNat c, hzero]
  have hvalid : c.toNat.isValidChar := c.valid
  rw [Escape.scalar, if_neg hzero, if_pos hvalid, Char.ofNat_toNat]

/-- The digits of a number end at the sixth or at a character that is none. -/
theorem Escape.hexDigits_of_ends {digits rest : List Char} (hlength : digits.length ≤ 6)
    (hhex : ∀ d ∈ digits, isHexDigit d = true)
    (hends : digits.length = 6 ∨ rest.head?.any isHexDigit = false) :
    Escape.hexDigits (digits ++ rest) = digits := by
  have hall : digits.takeWhile isHexDigit = digits := List.takeWhile_eq_self_iff.mpr hhex
  rcases hends with hsix | hnone
  · rw [Escape.hexDigits, List.take_left' hsix, hall]
  · have hself : Escape.hexDigits digits = digits := by
      rw [Escape.hexDigits, List.take_of_length_le hlength, hall]
    cases rest with
    | nil => rw [List.append_nil, hself]
    | cons c rest => rw [Escape.hexDigits_append hnone, hself]

theorem Escape.read_of_ends {digits rest : List Char} (hne : digits ≠ [])
    (hlength : digits.length ≤ 6) (hhex : ∀ d ∈ digits, isHexDigit d = true)
    (hends : digits.length = 6 ∨ rest.head?.any isHexDigit = false) :
    Escape.read (digits ++ rest) =
      (Escape.scalar (Escape.hexValue digits), Escape.dropBlank rest) := by
  have hdigits := Escape.hexDigits_of_ends hlength hhex hends
  cases digits with
  | nil => exact absurd rfl hne
  | cons d digits =>
      rw [List.cons_append] at hdigits ⊢
      simp only [Escape.read, if_pos (hhex d List.mem_cons_self), hdigits]
      rw [← List.cons_append, List.drop_left]

/-- The digits end at the blank, which belongs to them. -/
theorem Escape.read_digits {digits : List Char} {blank : Char} (hne : digits ≠ [])
    (hlength : digits.length ≤ 6) (hhex : ∀ d ∈ digits, isHexDigit d = true)
    (hblank : isBlank blank = true) (rest : List Char) :
    Escape.read (digits ++ blank :: rest) = (Escape.scalar (Escape.hexValue digits), rest) := by
  have hends : (blank :: rest).head?.any isHexDigit = false :=
    isHexDigit_eq_false_of_isBlank hblank
  rw [Escape.read_of_ends hne hlength hhex (.inr hends), Escape.dropBlank, if_pos hblank]

theorem startsEscape_digits {digits : List Char} (hne : digits ≠ [])
    (hhex : ∀ d ∈ digits, isHexDigit d = true) (rest : List Char) :
    startsEscape ('\\' :: (digits ++ rest)) = true := by
  cases digits with
  | nil => exact absurd rfl hne
  | cons d digits =>
      have hline : d ≠ '\n' := by
        intro hd
        have hdigit := hhex d List.mem_cons_self
        rw [hd] at hdigit
        exact absurd hdigit (by decide)
      simpa [startsEscape] using hline

/-- A backslash stands before the character itself or before the digits of its number. -/
theorem exists_of_writes_escape {c : Char} {behind : List Char} (h : Writes c ('\\' :: behind)) :
    ∃ d more, behind = d :: more ∧ d ≠ '\n' := by
  cases h with
  | plain hchar => exact absurd hchar (by decide)
  | escaped hhex hline => exact ⟨c, [], rfl, hline⟩
  | @numbered blank digits hne hlength hhex hvalue hnul hblank =>
      cases digits with
      | nil => exact absurd rfl hne
      | cons d digits =>
          refine ⟨d, digits ++ [blank], rfl, ?_⟩
          intro hline
          have hdigit := hhex d List.mem_cons_self
          rw [hline] at hdigit
          exact absurd hdigit (by decide)

theorem Escape.read_of_writes {c : Char} {behind : List Char} (h : Writes c ('\\' :: behind))
    (rest : List Char) : Escape.read (behind ++ rest) = (c, rest) := by
  cases h with
  | plain hchar => exact absurd hchar (by decide)
  | escaped hhex hline => simp [Escape.read, hhex]
  | @numbered blank digits hne hlength hhex hvalue hnul hblank =>
      have hread := Escape.read_digits hne hlength hhex hblank rest
      rw [hvalue, Escape.scalar_toNat hnul] at hread
      rwa [List.append_assoc, List.singleton_append]

theorem Name.read_of_writes_escape {c : Char} {behind : List Char}
    (h : Writes c ('\\' :: behind)) (rest : List Char) :
    Name.read ('\\' :: behind ++ rest) = (c :: (Name.read rest).1, (Name.read rest).2) := by
  obtain ⟨d, more, hbehind, hline⟩ := exists_of_writes_escape h
  have hstarts : startsEscape ('\\' :: (behind ++ rest)) = true := by
    simpa [hbehind, startsEscape] using hline
  rw [List.cons_append, Name.read_escape hstarts, Escape.read_of_writes h]

/-- No character of a spelling is taken for a part of the one before it. -/
theorem Name.read_of_writes {c : Char} {piece : List Char} (h : Writes c piece)
    (rest : List Char) :
    Name.read (piece ++ rest) = (c :: (Name.read rest).1, (Name.read rest).2) := by
  cases h with
  | plain hchar => exact Name.read_cons_of_isNameChar hchar rest
  | escaped hhex hline => exact Name.read_of_writes_escape (.escaped hhex hline) rest
  | numbered hne hlength hhex hvalue hnul hblank =>
      exact Name.read_of_writes_escape (.numbered hne hlength hhex hvalue hnul hblank) rest

theorem Name.read_of_spells {name text : List Char} (h : Spells name text) {rest : List Char}
    (hrest : endsName rest = true) : Name.read (text ++ rest) = (name, rest) := by
  induction h with
  | nil => exact Name.read_append_of_endsName (List.forall_mem_nil _) hrest
  | cons first _ ih => rw [List.append_assoc, Name.read_of_writes first, ih]

theorem Name.read_whole {name text : List Char} (h : Spells name text) :
    Name.read text = (name, []) := by
  have hread := Name.read_of_spells h (show endsName [] = true from rfl)
  rwa [List.append_nil] at hread

/-! ## How a spelling begins -/

theorem startsHash_of_writes {c : Char} {piece : List Char} (h : Writes c piece)
    (rest : List Char) : startsHash (piece ++ rest) = true := by
  cases h with
  | plain hchar => simp [startsHash, hchar]
  | escaped _ hline => simp [startsHash, startsEscape, hline]
  | @numbered blank digits hne _ hhex _ _ _ =>
      have hstarts := startsEscape_digits hne hhex ([blank] ++ rest)
      show startsHash ('\\' :: ((digits ++ [blank]) ++ rest)) = true
      rw [List.append_assoc, startsHash, hstarts, Bool.or_true]

theorem startsHash_of_spells {name text : List Char} (h : Spells name text) (hne : text ≠ []) :
    startsHash text = true := by
  cases h with
  | nil => exact absurd rfl hne
  | cons first _ => exact startsHash_of_writes first _

theorem startsEscape_of_spells {name rest : List Char} (h : Spells name ('\\' :: rest)) :
    startsEscape ('\\' :: rest) = true := by
  have hstarts := startsHash_of_spells h (List.cons_ne_nil _ _)
  have hslash : isNameChar '\\' = false := by decide
  simpa [startsHash, hslash] using hstarts

/-- A hyphen is written plain, and behind it the spelling of the rest begins. -/
theorem exists_spells_tail {name rest : List Char} (h : Spells name ('-' :: rest)) :
    ∃ others, Spells others rest := by
  generalize htext : '-' :: rest = text at h
  cases h with
  | nil => cases htext
  | @cons c others piece tail first hrest =>
      cases first with
      | plain =>
          cases htext
          exact ⟨others, hrest⟩
      | escaped => cases htext
      | numbered => cases htext

theorem startsName_of_spells {name text : List Char} (h : Spells name text)
    (hopens : opensName text = true) : startsName text = true := by
  cases text with
  | nil => cases hopens
  | cons c rest =>
      by_cases hc : c = '-'
      · subst hc
        obtain ⟨others, hrest⟩ := exists_spells_tail h
        cases rest with
        | nil => cases hopens
        | cons d rest =>
            simp only [opensName, if_true, List.head?_cons, Option.any_some, Bool.or_eq_true,
              beq_iff_eq] at hopens
            rcases hopens with (hd | hd) | hd
            · simp [startsName, hd]
            · simp [startsName, hd]
            · subst hd
              simp [startsName, startsEscape_of_spells hrest]
      · simp only [opensName, if_neg hc, Bool.or_eq_true, beq_iff_eq] at hopens
        rcases hopens with hstart | hslash
        · simp [startsName, hc, hstart]
        · subst hslash
          simp [startsName, startsEscape_of_spells h]

theorem startsNumber_of_opensName {text : List Char} (h : opensName text = true) :
    startsNumber text = false := by
  have hunsigned : ∀ {c : Char} (rest : List Char), isNameStart c = true ∨ c = '-' ∨ c = '\\' →
      startsUnsigned (c :: rest) = false := by
    intro c rest hc
    rcases hc with hc | rfl | rfl
    · exact startsUnsigned_eq_false_of_isNameStart hc rest
    · exact startsUnsigned_eq_false (by decide) (by decide) rest
    · exact startsUnsigned_eq_false (by decide) (by decide) rest
  cases text with
  | nil => cases h
  | cons c rest =>
      by_cases hc : c = '-'
      · subst hc
        cases rest with
        | nil => cases h
        | cons d rest =>
            simp only [opensName, if_true, List.head?_cons, Option.any_some, Bool.or_eq_true,
              beq_iff_eq, or_assoc] at h
            exact hunsigned rest h
      · simp only [opensName, if_neg hc, Bool.or_eq_true, beq_iff_eq] at h
        have hplus : c ≠ '+' := by
          intro hplus
          subst hplus
          exact absurd h (by decide)
        rw [startsNumber_eq_startsUnsigned hplus hc]
        exact hunsigned rest (h.imp_right .inr)

/-! ## Asking for an identifier -/

theorem ne_nil_of_spells {name text : List Char} (h : Spells name text) (hne : name ≠ []) :
    text ≠ [] := by
  cases h with
  | nil => exact absurd rfl hne
  | cons first _ => cases first <;> simp

theorem ofText_hash_of_spells {name text : String} (h : Spells name.toList text.toList)
    (hne : name ≠ "") : Token.ofText ("#" ++ text) = [.hash name, .eof] := by
  have hname : name.toList ≠ [] := by simpa using hne
  have hscan := Token.scan_hash_of_read (startsHash_of_spells h (ne_nil_of_spells h hname))
    (Name.read_whole h)
  rw [Token.scan_nil, String.ofList_toList] at hscan
  show Token.scan ("#" ++ text).toList = _
  rw [String.toList_append]
  exact hscan

theorem ofText_of_spells {name text : String} (h : Spells name.toList text.toList)
    (hopens : opensName text.toList = true) : Token.ofText text = [.ident name, .eof] := by
  have hscan := Token.scan_ident_of_read (startsName_of_spells h hopens)
    (startsNumber_of_opensName hopens) (Name.read_whole h) (by simp)
  rw [Token.scan_nil, String.ofList_toList] at hscan
  exact hscan

theorem compounds_hash_of_spells {name text : String} (h : Spells name.toList text.toList)
    (hne : name ≠ "") : (compile ("#" ++ text)).compounds = [⟨[.byId name], false⟩] := by
  rw [compile, ofText_hash_of_spells h hne]
  rfl

theorem select_hash_of_spells {name text : String} (h : Spells name.toList text.toList)
    (hne : name ≠ "") {scene : Scene} (hlinked : scene.Linked) (start : NodeId) :
    (scene.graph.select ("#" ++ text) start).found =
      (scene.links.below start).filter fun id => (scene.node? id).any (·.id == name) := by
  rw [Graph.found_select, compounds_hash_of_spells h hne, hlinked.matching_descendants rfl]
  apply List.filter_congr
  intro id _
  show (scene.node? id).any _ = _
  cases scene.node? id with
  | none => rfl
  | some node => simp [Compound.accepts, Simple.accepts]

theorem isNameChar_of_isHexDigit {c : Char} (h : isHexDigit c = true) : isNameChar c = true := by
  simp only [isHexDigit, Bool.or_eq_true, Bool.and_eq_true, decide_eq_true_eq] at h
  rcases h with (hdigit | hlower) | hupper
  · simp [isNameChar, hdigit]
  · have hletter : 'a' ≤ c ∧ c ≤ 'z' := ⟨hlower.1, Char.le_trans hlower.2 (by decide)⟩
    simp [isNameChar, isNameStart, hletter]
  · have hletter : 'A' ≤ c ∧ c ≤ 'Z' := ⟨hupper.1, Char.le_trans hupper.2 (by decide)⟩
    simp [isNameChar, isNameStart, hletter]

/-- Where no backslash can stand there is another way: digits are plain, a line feed has a number. -/
theorem exists_writes (c : Char) : ∃ piece, Writes c piece := by
  by_cases hchar : isNameChar c = true
  · exact ⟨_, .plain hchar⟩
  · by_cases hline : c = '\n'
    · subst hline
      have hvalue : Escape.hexValue ['a'] = '\n'.toNat := by decide
      have hhex : ∀ d ∈ ['a'], isHexDigit d = true := List.all_eq_true.mp (by decide)
      exact ⟨_, .numbered (List.cons_ne_nil _ _) (by decide) hhex hvalue (by decide)
        (show isBlank ' ' = true by decide)⟩
    · refine ⟨_, .escaped ?_ hline⟩
      rw [Bool.eq_false_iff]
      intro hhex
      exact hchar (isNameChar_of_isHexDigit hhex)

theorem exists_spells (name : List Char) : ∃ text, Spells name text := by
  induction name with
  | nil => exact ⟨[], .nil⟩
  | cons c name ih =>
      obtain ⟨piece, hpiece⟩ := exists_writes c
      obtain ⟨text, htext⟩ := ih
      exact ⟨piece ++ text, .cons hpiece htext⟩

/--
Every name has spellings.  However it is spelled behind `#`, the text is one hash and
compiles to the one condition that asks for the name; it finds the nodes below the start
that have the name, in the order of the tree.  Alone, a spelling that begins like an
identifier is one.
-/
theorem spelled_name_selects {name : String} (hne : name ≠ "") :
    (∃ text : String, Spells name.toList text.toList) ∧
      ∀ text : String, Spells name.toList text.toList →
        Token.ofText ("#" ++ text) = [.hash name, .eof] ∧
        (compile ("#" ++ text)).compounds = [⟨[.byId name], false⟩] ∧
        (∀ root edits start,
          let scene := (Scene.ofRoot root).edited edits
          (scene.graph.select ("#" ++ text) start).found =
              (scene.links.below start).filter (fun id => (scene.node? id).any (·.id == name)) ∧
            (∀ id, scene.links.below id =
              (scene.childrenOf id).flatMap fun child => child :: scene.links.below child) ∧
            ∀ id, id ∈ scene.links.below start ↔ start ∈ scene.ancestors id) ∧
        (opensName text.toList = true → Token.ofText text = [.ident name, .eof]) := by
  constructor
  · obtain ⟨text, htext⟩ := exists_spells name.toList
    exact ⟨String.ofList text, by simpa using htext⟩
  · intro text h
    refine ⟨ofText_hash_of_spells h hne, compounds_hash_of_spells h hne, ?_, ofText_of_spells h⟩
    intro root edits start scene
    have hlinked : scene.Linked := Scene.linked_edited (Scene.linked_ofRoot root) edits
    exact ⟨select_hash_of_spells h hne hlinked start, hlinked.below_eq,
      hlinked.mem_below_iff start⟩

theorem spelled_name_selects_mixed :
    let text := "-\\000031\t\\ \\41\nf"
    let scene := (Scene.ofRoot (.ofType "p" "PAGE")).edited
      [.addLeaf (.ofType "-1 Af" "RECT"), .addLeaf (.ofType "-1" "RECT"), .append ⟨0⟩ ⟨2⟩,
        .append ⟨0⟩ ⟨1⟩]
    "-1 Af" ≠ "" ∧ Spells "-1 Af".toList text.toList ∧ opensName text.toList = true ∧
      Token.ofText text = [.ident "-1 Af", .eof] ∧
      (scene.graph.select ("#" ++ text) .root).found = [⟨1⟩] := by
  intro text scene
  have hne : "-1 Af" ≠ "" := by decide
  have hone : Writes '1' ('\\' :: (['0', '0', '0', '0', '3', '1'] ++ ['\t'])) :=
    .numbered (by decide) (by decide) (List.all_eq_true.mp (by decide)) (by decide) (by decide)
      (by decide)
  have hletter : Writes 'A' ('\\' :: (['4', '1'] ++ ['\n'])) :=
    .numbered (by decide) (by decide) (List.all_eq_true.mp (by decide)) (by decide) (by decide)
      (by decide)
  have hplain : Writes '-' ['-'] ∧ Writes 'f' ['f'] := ⟨.plain (by decide), .plain (by decide)⟩
  have hspace : Writes ' ' ['\\', ' '] := .escaped (by decide) (by decide)
  have hspells : Spells "-1 Af".toList text.toList := by
    have hname : "-1 Af".toList = ['-', '1', ' ', 'A', 'f'] := by decide
    have htext : text.toList = ['-'] ++ ('\\' :: (['0', '0', '0', '0', '3', '1'] ++ ['\t']) ++
        (['\\', ' '] ++ ('\\' :: (['4', '1'] ++ ['\n']) ++ (['f'] ++ [])))) := by decide
    rw [hname, htext]
    exact .cons hplain.1 (.cons hone (.cons hspace (.cons hletter (.cons hplain.2 .nil))))
  have hopens : opensName text.toList = true := by decide
  obtain ⟨-, -, hselect, hident⟩ := (spelled_name_selects hne).2 text hspells
  refine ⟨hne, hspells, hopens, hident hopens, ?_⟩
  rw [(hselect _ _ .root).1]
  decide +kernel

end Scenery.Selector
