import RowQuery.Proofs.Text.Trimming
import RowQuery.Sql.Clause

/-!
# Optional keywords

A clause may be written with its keyword or without it.  The keyword may have any ASCII case
and any blanks in front of it, between its words and behind it, but something has to stand
between the keyword and the clause.  Where the keyword is only begun, or goes on into another
word, it belongs to the clause.

Main results:

- Definitions {lit}`Spells` and {lit}`Clause.Opens`: the ways to write a keyword, and the texts that
  start with one.
- Theorem {lit}`afterWords?_eq_some_iff`: a text is read past its keyword
  exactly if it starts with it.
- Theorem {lit}`Clause.keywordOptional`: the keyword does not matter, and what is left is a piece of
  the text without blanks around.
-/

namespace RowQuery.Sql

open Text

/-! ## Words -/

/-- The characters are all blanks. -/
def Blank (text : List Char) : Prop := ∀ c ∈ text, isBlank c = true

/-- The word starts with something else than a blank, in upper case and in lower case. -/
def startsPlain (word : String) : Bool := (foldAscii word).head?.any (!isBlank ·)

/-- The words are written one behind the other, in any ASCII case and with blanks between them. -/
inductive Spells : List String → List Char → Prop
  | last {word : String} {chars : List Char} (hword : chars.map Char.toLower = foldAscii word) :
    Spells [word] chars
  | cons {word : String} {words : List String} {chars gap rest : List Char}
    (hword : chars.map Char.toLower = foldAscii word) (hne : gap ≠ []) (hgap : Blank gap)
    (hrest : Spells words rest) : Spells (word :: words) (chars ++ gap ++ rest)

/-- A blank is no letter, so that it has no other case. -/
theorem isBlank_toLower {c : Char} (h : isBlank c = true) : c.toLower = c := by
  have hplain : ¬ ('A'.val ≤ c.val ∧ c.val ≤ 'Z'.val) := by
    intro hupper
    have hrange : 65 ≤ c.toNat ∧ c.toNat ≤ 90 :=
      ⟨UInt32.le_iff_toNat_le.1 hupper.1, UInt32.le_iff_toNat_le.1 hupper.2⟩
    rw [isBlank, List.any_eq_true] at h
    obtain ⟨range, hmem, h⟩ := h
    simp only [blankRanges, List.mem_cons, List.not_mem_nil, or_false] at hmem
    rcases hmem with rfl | rfl | rfl | rfl | rfl | rfl | rfl | rfl | rfl | rfl
    all_goals
      simp only [Bool.and_eq_true, decide_eq_true_eq] at h
      omega
  exact dif_neg hplain

/-- A word is written with something else than a blank in front. -/
theorem exists_cons_of_startsPlain {word : String} {chars : List Char}
    (hword : chars.map Char.toLower = foldAscii word) (hplain : startsPlain word = true) :
    ∃ c rest, chars = c :: rest ∧ isBlank c = false := by
  rw [startsPlain, ← hword] at hplain
  cases chars with
  | nil => cases hplain
  | cons c rest =>
    refine ⟨c, rest, rfl, ?_⟩
    rw [Bool.eq_false_iff]
    intro hblank
    simp [isBlank_toLower hblank, hblank] at hplain

/-- Words are written with something else than a blank in front. -/
theorem Spells.exists_cons {words : List String} {written : List Char} (h : Spells words written)
    (hplain : ∀ word ∈ words, startsPlain word = true) :
    ∃ c rest, written = c :: rest ∧ isBlank c = false := by
  cases h with
  | last hword => exact exists_cons_of_startsPlain hword (hplain _ List.mem_cons_self)
  | @cons word words chars gap rest hword _ _ _ =>
    obtain ⟨c, more, rfl, hc⟩ := exists_cons_of_startsPlain hword (hplain _ List.mem_cons_self)
    exact ⟨c, more ++ gap ++ rest, by simp, hc⟩

/-- Nothing is removed in front of words and what stands behind them. -/
theorem Spells.trimStart_append {words : List String} {written : List Char}
    (h : Spells words written) (hplain : ∀ word ∈ words, startsPlain word = true)
    (behind : List Char) : trimStart (written ++ behind) = written ++ behind := by
  obtain ⟨c, rest, rfl, hc⟩ := h.exists_cons hplain
  refine trimStart_eq_self fun c' hc' => ?_
  cases hc'
  exact hc

namespace Clause

/-! ## Reading past words -/

/-- A word is read past if the text starts with it and goes on with a blank or not at all. -/
theorem afterWord?_eq_some_iff {word : String} {text rest : List Char} :
    afterWord? word text = some rest ↔
      ∃ chars behind, text = chars ++ behind ∧ chars.map Char.toLower = foldAscii word ∧
        atBoundary behind = true ∧ rest = trimStart behind := by
  have hlength : (foldAscii word).length = word.length := by
    rw [foldAscii, List.length_map, String.length_toList]
  rw [afterWord?]
  constructor
  · intro h
    split at h
    · rename_i hstarts
      cases h
      exact ⟨text.take word.length, text.drop word.length, (List.take_append_drop ..).symm,
        hstarts.1, hstarts.2, rfl⟩
    · cases h
  · rintro ⟨chars, behind, rfl, hword, hboundary, rfl⟩
    have hchars : chars.length = word.length := by
      rw [← hlength, ← hword, List.length_map]
    rw [List.take_left' hchars, List.drop_left' hchars, if_pos ⟨hword, hboundary⟩]

/-- Blanks end a word. -/
theorem atBoundary_append {gap : List Char} (hne : gap ≠ []) (hgap : Blank gap)
    (behind : List Char) : atBoundary (gap ++ behind) = true := by
  cases gap with
  | nil => exact absurd rfl hne
  | cons c rest => exact hgap c List.mem_cons_self

/-- Words are read past exactly if the text starts with them and goes on with a blank or not at
all. -/
theorem afterWords?_eq_some_iff {words : List String} (hwords : words ≠ [])
    (hplain : ∀ word ∈ words, startsPlain word = true) {text rest : List Char} :
    afterWords? words text = some rest ↔
      ∃ written behind, text = written ++ behind ∧ Spells words written ∧
        atBoundary behind = true ∧ rest = trimStart behind := by
  induction words generalizing text with
  | nil => exact absurd rfl hwords
  | cons word words ih =>
    rw [afterWords?, Option.bind_eq_bind, Option.bind_eq_some_iff]
    cases words with
    | nil =>
      constructor
      · rintro ⟨rest', hword, hrest⟩
        obtain rfl : rest' = rest := Option.some.inj hrest
        obtain ⟨chars, behind, htext, hchars, hboundary, hrest⟩ := afterWord?_eq_some_iff.1 hword
        exact ⟨chars, behind, htext, .last hchars, hboundary, hrest⟩
      · rintro ⟨written, behind, htext, hspells, hboundary, hrest⟩
        refine ⟨rest, afterWord?_eq_some_iff.2 ?_, rfl⟩
        cases hspells with
        | last hword => exact ⟨written, behind, htext, hword, hboundary, hrest⟩
        | cons _ _ _ hnone => cases hnone
    | cons next words =>
      have hplain' : ∀ word ∈ next :: words, startsPlain word = true :=
        fun w hw => hplain w (List.mem_cons_of_mem word hw)
      simp only [ih (List.cons_ne_nil next words) hplain']
      constructor
      · rintro ⟨middle, hword, written, behind, hmiddle, hspells, hboundary, hrest⟩
        obtain ⟨chars, after, htext, hchars, hafter, hmiddle'⟩ := afterWord?_eq_some_iff.1 hword
        -- the blanks that are removed behind the first word are the gap in front of the others
        obtain ⟨gap, hgap, hsplit⟩ := exists_blanks_append_trimStart after
        rw [← hmiddle', hmiddle] at hsplit
        refine ⟨chars ++ gap ++ written, behind, ?_, .cons hchars ?_ hgap hspells, hboundary, hrest⟩
        · rw [htext, hsplit]
          simp
        · rintro rfl
          obtain ⟨c, more, rfl, hc⟩ := hspells.exists_cons hplain'
          rw [hsplit] at hafter
          exact Bool.false_ne_true (hc.symm.trans hafter)
      · rintro ⟨written, behind, htext, hspells, hboundary, hrest⟩
        cases hspells with
        | @cons _ _ chars gap written hword hne hgap hspells =>
          refine ⟨written ++ behind, afterWord?_eq_some_iff.2
            ⟨chars, gap ++ (written ++ behind), ?_, hword, atBoundary_append hne hgap _, ?_⟩,
            written, behind, rfl, hspells, hboundary, hrest⟩
          · rw [htext]
            simp
          · rw [trimStart_append_of_blank hgap, hspells.trimStart_append hplain']

/-! ## Texts that start with a keyword -/

/-- The text starts with the keyword of the clause, behind any blanks, and goes on with
a blank or not at all. -/
def Opens (k : Clause) (text : List Char) : Prop :=
  ∃ lead written behind, text = lead ++ written ++ behind ∧ Blank lead ∧ Spells k.words written ∧
    atBoundary behind = true

variable (k : Clause)

theorem words_ne_nil : k.words ≠ [] := by
  cases k <;> exact List.cons_ne_nil _ _

theorem startsPlain_words : ∀ word ∈ k.words, startsPlain word = true := by
  cases k <;> decide

/-- What is left of a text that starts with the keyword is what stands behind it. -/
theorem stripChars_of_spells {lead written behind : List Char} (hlead : Blank lead)
    (hwritten : Spells k.words written) (hboundary : atBoundary behind = true) :
    k.stripChars (lead ++ written ++ behind) = trim behind := by
  have hplain := k.startsPlain_words
  have hread : afterWords? k.words (trimStart (lead ++ written ++ behind)) =
      some (trimStart behind) := by
    rw [List.append_assoc, trimStart_append_of_blank hlead, hwritten.trimStart_append hplain]
    exact (afterWords?_eq_some_iff k.words_ne_nil hplain).2
      ⟨written, behind, rfl, hwritten, hboundary, rfl⟩
  rw [stripChars, hread]
  rfl

/-- What is left of a text that does not start with the keyword is all but the blanks around it. -/
theorem stripChars_of_not_opens {text : List Char} (h : ¬ k.Opens text) :
    k.stripChars text = trim text := by
  rw [stripChars]
  split
  · rename_i rest hread
    obtain ⟨written, behind, htext, hwritten, hboundary, -⟩ :=
      (afterWords?_eq_some_iff k.words_ne_nil k.startsPlain_words).1 hread
    obtain ⟨lead, hlead, hsplit⟩ := exists_blanks_append_trimStart text
    refine absurd ⟨lead, written, behind, ?_, hlead, hwritten, hboundary⟩ h
    rw [List.append_assoc, ← htext]
    exact hsplit
  · rfl

/-- What is left of a text is what is left of its end when the blanks around are removed. -/
theorem exists_stripChars_eq_trim (text : List Char) :
    ∃ front behind, text = front ++ behind ∧ k.stripChars text = trim behind := by
  by_cases h : k.Opens text
  · obtain ⟨lead, written, behind, rfl, hlead, hwritten, hboundary⟩ := h
    exact ⟨lead ++ written, behind, rfl, k.stripChars_of_spells hlead hwritten hboundary⟩
  · exact ⟨[], text, rfl, k.stripChars_of_not_opens h⟩

/-! ## The whole -/

/-- A clause whose keyword may be written or left out. -/
structure KeywordOptional : Prop where
  /-- A text that does not start with the keyword is only trimmed. -/
  plain : ∀ text : String, ¬ k.Opens text.toList → k.strip text = trimmed text
  /-- The keyword is removed once, in whatever way it is written in front of a text. -/
  removed : ∀ lead keyword gap text : String, Blank lead.toList → Spells k.words keyword.toList →
    Blank gap.toList → gap ≠ "" → k.strip (lead ++ keyword ++ gap ++ text) = trimmed text
  /-- So the keyword does not matter in front of a text that does not start with it. -/
  optional : ∀ lead keyword gap text : String, Blank lead.toList → Spells k.words keyword.toList →
    Blank gap.toList → gap ≠ "" → ¬ k.Opens text.toList →
      k.strip (lead ++ keyword ++ gap ++ text) = k.strip text
  /-- There are no blanks around what is left. -/
  ends : ∀ text : String, (∀ c ∈ (k.strip text).toList.head?, isBlank c = false) ∧
    ∀ c ∈ (k.strip text).toList.getLast?, isBlank c = false
  /-- What is left is a piece of the text. -/
  piece : ∀ text : String, ∃ before after, text = before ++ k.strip text ++ after

/-- The keyword of each clause may be written or left out. -/
theorem keywordOptional : k.KeywordOptional := by
  have hplain (text : String) (h : ¬ k.Opens text.toList) : k.strip text = trimmed text := by
    rw [strip, k.stripChars_of_not_opens h]
    rfl
  have hremoved (lead keyword gap text : String) (hlead : Blank lead.toList)
      (hkeyword : Spells k.words keyword.toList) (hgap : Blank gap.toList) (hne : gap ≠ "") :
      k.strip (lead ++ keyword ++ gap ++ text) = trimmed text := by
    have hgap' : gap.toList ≠ [] := by simpa using hne
    have hboundary := atBoundary_append hgap' hgap text.toList
    rw [strip, String.toList_append, String.toList_append, String.toList_append, List.append_assoc,
      k.stripChars_of_spells hlead hkeyword hboundary, trim_append_of_blank hgap]
    rfl
  refine ⟨hplain, hremoved, fun lead keyword gap text hlead hkeyword hgap hne h => ?_,
    fun text => ?_, fun text => ?_⟩
  · rw [hremoved lead keyword gap text hlead hkeyword hgap hne, hplain text h]
  · obtain ⟨_, behind, -, hstrip⟩ := k.exists_stripChars_eq_trim text.toList
    rw [strip, String.toList_ofList, hstrip]
    exact ⟨fun c hc => isBlank_head?_trim hc, fun c hc => isBlank_getLast?_trim hc⟩
  · obtain ⟨front, behind, htext, hstrip⟩ := k.exists_stripChars_eq_trim text.toList
    obtain ⟨before, after, hbehind⟩ := isInfix_trim behind
    refine ⟨String.ofList (front ++ before), String.ofList after, ?_⟩
    rw [← String.toList_inj, strip, hstrip]
    simp only [String.toList_append, String.toList_ofList, List.append_assoc] at hbehind ⊢
    rw [hbehind]
    exact htext

/-- A keyword of two words needs both of them. -/
example : ordering.strip " order\t By  Name DESC " = "Name DESC" ∧
    ordering.strip "order Name" = "order Name" := by
  decide +kernel

end Clause

end RowQuery.Sql
