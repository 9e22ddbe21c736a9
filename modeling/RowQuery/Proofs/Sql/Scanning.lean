import RowQuery.Sql.Placeholder

/-!
# Scanning a text piece by piece

The scanner of placeholders reads a statement from left to right, while a statement is put
together from pieces.  This module says what the scanner makes of a piece whatever stands
behind it, so that the placeholders of a statement follow from those of its pieces.

Main results:

- Theorem {lit}`Quiet.yields`: a piece without at signs and with closed quotes yields nothing
  and leaves the scanner as it was.
- Theorems {lit}`Yields.append`, {lit}`Yields.append_scans` and {lit}`Scans.append`: how the
  placeholders of two pieces make those of both.
- Theorem {lit}`tokens_append`: what the scanner makes of any piece and of what stands behind it.
- Theorem {lit}`Scans.placeholders_eq`: the placeholders of a whole text.
-/

namespace RowQuery.Sql

/-! ## What may stand behind a placeholder -/

/-- No placeholder goes on into this text. -/
def Ends (text : List Char) : Prop :=
  ∀ c ∈ text.head?, isTerminator c = true

@[simp]
theorem ends_nil : Ends [] := by
  simp [Ends]

@[simp]
theorem ends_cons {c : Char} {rest : List Char} :
    Ends (c :: rest) ↔ isTerminator c = true := by
  simp [Ends]

/-- A piece that starts with an end does so whatever stands behind it. -/
theorem ends_append {after : String} (h : after.toList.head?.any isTerminator = true)
    (rest : List Char) : Ends (after.toList ++ rest) := by
  cases hafter : after.toList with
  | nil => simp [hafter] at h
  | cons c _ => simpa [hafter] using h

/-- Behind the characters of a name the scanner stops where no placeholder goes on. -/
theorem takeWhile_append_of_ends {name rest : List Char}
    (hname : ∀ c ∈ name, isTerminator c = false) (hrest : Ends rest) :
    (name ++ rest).takeWhile (!isTerminator ·) = name := by
  rw [List.takeWhile_append_of_pos (by simpa using hname)]
  cases rest with
  | nil => simp
  | cons c rest => simp [ends_cons.1 hrest]

/-- What the scanner leaves behind a name is what stands behind it. -/
theorem dropWhile_append_of_ends {name rest : List Char}
    (hname : ∀ c ∈ name, isTerminator c = false) (hrest : Ends rest) :
    (name ++ rest).dropWhile (!isTerminator ·) = rest := by
  rw [List.dropWhile_append_of_pos (by simpa using hname)]
  cases rest with
  | nil => rfl
  | cons c rest => simp [ends_cons.1 hrest]

/-- What starts with an end does not go on the name at the start of a text. -/
theorem takeWhile_append_ends (text : List Char) {rest : List Char} (h : Ends rest) :
    (text ++ rest).takeWhile (!isTerminator ·) = text.takeWhile (!isTerminator ·) := by
  induction text with
  | nil => exact takeWhile_append_of_ends (by simp) h
  | cons c text ih => cases hc : isTerminator c <;> simp [hc, ih]

/-- What starts with an end is left behind the name at the start of a text. -/
theorem dropWhile_append_ends (text : List Char) {rest : List Char} (h : Ends rest) :
    (text ++ rest).dropWhile (!isTerminator ·) = text.dropWhile (!isTerminator ·) ++ rest := by
  induction text with
  | nil => exact dropWhile_append_of_ends (by simp) h
  | cons c text ih => cases hc : isTerminator c <;> simp [hc, ih]

/-! ## Pieces of a text -/

/-- Outside of quotes, a piece yields these placeholders whatever stands behind it. -/
def Yields (text : String) (names : List String) : Prop :=
  ∀ rest, tokens false (text.toList ++ rest) = names.map String.toList ++ tokens false rest

/-- Outside of quotes, a piece yields these placeholders unless its last one goes on behind
it. -/
def Scans (text : String) (names : List String) : Prop :=
  ∀ rest, Ends rest →
    tokens false (text.toList ++ rest) = names.map String.toList ++ tokens false rest

/-- A piece has no at sign and closes the quotes that it opens. -/
def Quiet (text : String) : Prop :=
  '@' ∉ text.toList ∧ text.toList.count '\'' % 2 = 0

instance (text : String) : Decidable (Quiet text) :=
  inferInstanceAs (Decidable (_ ∧ _))

/-- Every quote of a piece without at signs opens or closes a quoted piece. -/
theorem tokens_append_of_notMem {text : List Char} (hat : '@' ∉ text) (quoted : Bool)
    (rest : List Char) :
    tokens quoted (text ++ rest) =
      tokens (quoted ^^ (text.count '\'' % 2 == 1)) rest := by
  induction text generalizing quoted with
  | nil => simp
  | cons c text ih =>
    have hc : c ≠ '@' := fun h => hat (h ▸ List.mem_cons_self)
    have htext : '@' ∉ text := fun h => hat (List.mem_cons_of_mem c h)
    rw [List.cons_append, tokens]
    by_cases hquote : c = '\''
    · rw [if_pos hquote, ih htext, hquote, List.count_cons_self]
      have hparity : ((text.count '\'' + 1) % 2 == 1) = !(text.count '\'' % 2 == 1) := by
        rcases Nat.mod_two_eq_zero_or_one (text.count '\'') with h | h <;>
          simp [Nat.add_mod, h]
      rw [hparity, Bool.not_xor, Bool.xor_not]
    · rw [if_neg hquote, if_pos (by simp [hc]), ih htext,
        List.count_cons_of_ne hquote]

/-- A text without at signs has no placeholders. -/
theorem tokens_of_notMem {text : List Char} (hat : '@' ∉ text) (quoted : Bool) :
    tokens quoted text = [] := by
  have htokens := tokens_append_of_notMem hat quoted []
  rwa [List.append_nil, tokens] at htokens

/-- A piece without at signs and with closed quotes yields nothing. -/
theorem Quiet.yields {text : String} (h : Quiet text) : Yields text [] := by
  intro rest
  rw [tokens_append_of_notMem h.1, h.2]
  rfl

/-- A piece that may be followed by anything may be followed by an end. -/
theorem Yields.scans {text : String} {names : List String} (h : Yields text names) :
    Scans text names :=
  fun rest _ => h rest

/-- The empty text yields nothing. -/
theorem yields_empty : Yields "" [] := fun _ => rfl

/-- The empty text has no placeholders. -/
theorem scans_empty : Scans "" [] := yields_empty.scans

/-- Two pieces that may be followed by anything. -/
theorem Yields.append {a b : String} {as bs : List String} (ha : Yields a as)
    (hb : Yields b bs) : Yields (a ++ b) (as ++ bs) := by
  intro rest
  rw [String.toList_append, List.append_assoc, ha, hb, List.map_append, List.append_assoc]

/-- A piece that may be followed by anything, in front of one that may not. -/
theorem Yields.append_scans {a b : String} {as bs : List String} (ha : Yields a as)
    (hb : Scans b bs) : Scans (a ++ b) (as ++ bs) := by
  intro rest hrest
  rw [String.toList_append, List.append_assoc, ha, hb rest hrest, List.map_append,
    List.append_assoc]

/-- A piece in front of one that starts with an end and may be followed by anything. -/
theorem Scans.append {a b : String} {as bs : List String} (ha : Scans a as)
    (hb : Yields b bs) (hends : ∀ rest, Ends (b.toList ++ rest)) :
    Yields (a ++ b) (as ++ bs) := by
  intro rest
  rw [String.toList_append, List.append_assoc, ha _ (hends rest), hb, List.map_append,
    List.append_assoc]

/-- A piece in front of one that starts with an end, if anything stands there. -/
theorem Scans.append_scans {a b : String} {as bs : List String} (ha : Scans a as)
    (hb : Scans b bs) (hends : ∀ rest, Ends rest → Ends (b.toList ++ rest)) :
    Scans (a ++ b) (as ++ bs) := by
  intro rest hrest
  rw [String.toList_append, List.append_assoc, ha _ (hends rest hrest), hb rest hrest,
    List.map_append, List.append_assoc]

/-- A piece between two quiet ones, the second of which starts with an end. -/
theorem Scans.between {before text after : String} {bs names : List String}
    (hbefore : Yields before bs) (h : Scans text names) (hafter : Quiet after)
    (hends : ∀ rest, Ends (after.toList ++ rest)) :
    Yields (before ++ text ++ after) (bs ++ names) := by
  have hboth := (hbefore.append_scans h).append hafter.yields hends
  rwa [List.append_nil] at hboth

/-! ## Any text -/

/-- Whether the scanner is inside of a quoted piece behind a text, in front of which it was
inside of one or not. -/
def quotedBehind (quoted : Bool) (text : List Char) : Bool :=
  match text with
  | [] => quoted
  | c :: rest =>
    if c = '\'' then quotedBehind (!quoted) rest
    else if quoted || c ≠ '@' then quotedBehind quoted rest
    else quotedBehind quoted (rest.dropWhile (!isTerminator ·))
  termination_by text.length
  decreasing_by
    · exact Nat.lt_succ_self _
    · exact Nat.lt_succ_self _
    · exact Nat.lt_succ_of_le (List.dropWhile_sublist _).length_le

/-- A text in front of an end is scanned on its own, and what stands behind it from where the
text leaves the scanner. -/
theorem tokens_append (quoted : Bool) (text : List Char) {rest : List Char} (h : Ends rest) :
    tokens quoted (text ++ rest) =
      tokens quoted text ++ tokens (quotedBehind quoted text) rest := by
  induction quoted, text using tokens.induct with
  | case1 quoted => simp [tokens, quotedBehind]
  | case2 quoted behind ih =>
    rw [List.cons_append, tokens, if_pos rfl, ih, tokens, if_pos rfl, quotedBehind, if_pos rfl]
  | case3 quoted c behind hquote hskip ih =>
    rw [List.cons_append, tokens, if_neg hquote, if_pos hskip, ih, tokens, if_neg hquote,
      if_pos hskip, quotedBehind, if_neg hquote, if_pos hskip]
  | case4 quoted c behind hquote hskip name hname ih =>
    rw [List.cons_append, tokens, tokens, quotedBehind]
    simp only [if_neg hquote, if_neg hskip, takeWhile_append_ends behind h,
      dropWhile_append_ends behind h]
    rw [if_pos hname, if_pos hname, ih]
    rfl
  | case5 quoted c behind hquote hskip name hname ih =>
    rw [List.cons_append, tokens, tokens, quotedBehind]
    simp only [if_neg hquote, if_neg hskip, takeWhile_append_ends behind h,
      dropWhile_append_ends behind h]
    rw [if_neg hname, if_neg hname, ih]

/-- A text closes the quoted pieces that it opens. -/
def Closed (text : String) : Prop :=
  quotedBehind false text.toList = false

instance (text : String) : Decidable (Closed text) :=
  inferInstanceAs (Decidable (_ = _))

/-- Names as the scanner gives them are the characters of names. -/
theorem map_toList_placeholders (text : String) :
    (placeholders text).map String.toList = tokens false text.toList := by
  have hid : String.toList ∘ String.ofList = id := by
    funext name
    simp
  rw [placeholders, List.map_map, hid, List.map_id]

/-- A text with closed quotes has its placeholders wherever an end follows. -/
theorem Closed.scans {text : String} (h : Closed text) : Scans text (placeholders text) := by
  intro rest hrest
  rw [tokens_append _ _ hrest, h, map_toList_placeholders]

/-! ## Whole texts -/

/-- A piece that yields nothing does not matter in front of a text. -/
theorem Yields.placeholders_append {a : String} (h : Yields a []) (b : String) :
    placeholders (a ++ b) = placeholders b := by
  rw [placeholders, placeholders, String.toList_append, h, List.map_nil, List.nil_append]

/-- A text without at signs does not matter behind another one that it ends. -/
theorem placeholders_append_of_notMem (a : String) {b : String} (hat : '@' ∉ b.toList)
    (hends : Ends b.toList) : placeholders (a ++ b) = placeholders a := by
  rw [placeholders, placeholders, String.toList_append, tokens_append _ _ hends,
    tokens_of_notMem hat, List.append_nil]

/-- The placeholders of a text that is read from its start. -/
theorem Scans.placeholders_eq {text : String} {names : List String} (h : Scans text names) :
    placeholders text = names := by
  have htokens : tokens false text.toList = names.map String.toList := by
    simpa [tokens] using h [] ends_nil
  rw [placeholders, htokens, List.map_map]
  have hid : String.ofList ∘ String.toList = id := by
    funext name
    simp
  rw [hid, List.map_id]

end RowQuery.Sql
