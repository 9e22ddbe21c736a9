import Mathlib.Data.List.Sort
import Mathlib.Data.List.TakeWhile
import RowQuery.Proofs.Sql.Scanning

/-!
# Placeholders and quoted pieces

A quoted piece of a text is one between two quotes.  An at sign outside of all quoted pieces starts
a stretch, which goes on up to an end; the placeholders are the stretches that name something, the
others are variables of the database and lone at signs.  These stretches are determined by the text.
The scanner finds them by counting quotes, but does not count those inside of a stretch.

Main results:

- Definition {lit}`stretchesFrom`: the scanner with the places of what it finds, which counts the
  quotes inside of stretches or not.
- Theorem {lit}`OutsideQuotes.unique`: the stretches outside of quoted pieces are determined.
- Theorem {lit}`outsideQuotes_stretchesFrom`: to count the quotes inside of stretches finds them.
- Theorem {lit}`placesPlaceholders`: where placeholders stand in every text, and for which texts
  that is outside of the quoted pieces.
-/

namespace RowQuery.Sql

/-! ## Stretches -/

/-- A piece of a text, and how many characters stand in front of it. -/
structure Stretch where
  start : Nat
  chars : List Char
  deriving DecidableEq

namespace Stretch

/-- The stretch of an at sign with these characters behind it. -/
def ofRest (i : Nat) (rest : List Char) : Stretch :=
  ⟨i, '@' :: rest.takeWhile (!isTerminator ·)⟩

/-- How many characters stand in front of what comes behind the stretch. -/
def stop (s : Stretch) : Nat := s.start + s.chars.length

/-- The stretch names something: it is neither a lone at sign nor a variable of the database. -/
def isPlaceholder (s : Stretch) : Bool := isName s.chars.tail

end Stretch

/-- An odd number of quotes. -/
def oddQuotes (text : List Char) : Bool := text.count '\'' % 2 == 1

theorem oddQuotes_append (text rest : List Char) :
    oddQuotes (text ++ rest) = (oddQuotes text ^^ oddQuotes rest) := by
  rw [oddQuotes, oddQuotes, oddQuotes, List.count_append, Nat.add_mod]
  rcases Nat.mod_two_eq_zero_or_one (text.count '\'') with h | h <;>
    rcases Nat.mod_two_eq_zero_or_one (rest.count '\'') with h' | h' <;> simp [h, h']

theorem oddQuotes_cons_of_ne {c : Char} (h : c ≠ '\'') (text : List Char) :
    oddQuotes (c :: text) = oddQuotes text := by
  rw [oddQuotes, oddQuotes, List.count_cons_of_ne h]

/-- The stretches behind a place of a text that is inside of a quoted piece or not, where the quotes
within stretches are counted or not. -/
def stretchesFrom (within quoted : Bool) (i : Nat) (text : List Char) : List Stretch :=
  match text with
  | [] => []
  | c :: rest =>
    if c = '\'' then stretchesFrom within (!quoted) (i + 1) rest
    else if quoted || c ≠ '@' then stretchesFrom within quoted (i + 1) rest
    else
      let s := Stretch.ofRest i rest
      s :: stretchesFrom within (within && oddQuotes s.chars) s.stop
        (rest.dropWhile (!isTerminator ·))
  termination_by text.length
  decreasing_by
    · exact Nat.lt_succ_self _
    · exact Nat.lt_succ_self _
    · exact Nat.lt_succ_of_le (List.dropWhile_sublist _).length_le

/-- Outside of quoted pieces an at sign starts a stretch. -/
theorem stretchesFrom_at (within : Bool) (i : Nat) (rest : List Char) :
    stretchesFrom within false i ('@' :: rest) =
      Stretch.ofRest i rest ::
        stretchesFrom within (within && oddQuotes (Stretch.ofRest i rest).chars)
          (Stretch.ofRest i rest).stop (rest.dropWhile (!isTerminator ·)) := by
  rw [stretchesFrom, if_neg (by decide), if_neg (by decide)]

/-- A character that is not passed over is an at sign outside of quoted pieces. -/
theorem eq_at_of_not_skipped {quoted : Bool} {c : Char}
    (h : ¬ (quoted || decide (c ≠ '@')) = true) :
    quoted = false ∧ c = '@' := by
  simpa using h

/-- The scanner finds the stretches that name something, without counting the quotes within. -/
theorem tokens_eq (quoted : Bool) (i : Nat) (text : List Char) :
    tokens quoted text =
      ((stretchesFrom false quoted i text).filter Stretch.isPlaceholder).map Stretch.chars := by
  induction quoted, i, text using stretchesFrom.induct false with
  | case1 quoted i => simp [tokens, stretchesFrom]
  | case2 quoted i rest ih => rw [tokens, if_pos rfl, stretchesFrom, if_pos rfl, ih]
  | case3 quoted i c rest hquote hskip ih =>
    rw [tokens, if_neg hquote, if_pos hskip, stretchesFrom, if_neg hquote, if_pos hskip, ih]
  | case4 quoted i c rest hquote hskip s ih =>
    obtain ⟨rfl, rfl⟩ := eq_at_of_not_skipped hskip
    rw [Bool.false_and] at ih
    rw [tokens, if_neg hquote, if_neg hskip, stretchesFrom_at, Bool.false_and, ih]
    by_cases hname : s.isPlaceholder = true
    · rw [List.filter_cons_of_pos hname]
      exact if_pos hname
    · rw [List.filter_cons_of_neg hname]
      exact if_neg hname

/-! ## Stretches in a text -/

/-- The character at a place. -/
theorem getElem?_of_drop {text rest : List Char} {i : Nat} {c : Char}
    (hdrop : text.drop i = c :: rest) : text[i]? = some c := by
  rw [← List.head?_drop, hdrop, List.head?_cons]

/-- What stands behind a character. -/
theorem drop_succ_of_drop {text rest : List Char} {i : Nat} {c : Char}
    (hdrop : text.drop i = c :: rest) : text.drop (i + 1) = rest := by
  rw [← List.drop_drop, hdrop, List.drop_one, List.tail_cons]

/-- The stretches stand in a text behind a place, one behind the other, and each goes on up to an
end. -/
structure LaidOut (text : List Char) (i : Nat) (stretches : List Stretch) : Prop where
  /-- A stretch starts with an at sign. -/
  starts : ∀ s ∈ stretches, i ≤ s.start ∧ text[s.start]? = some '@'
  /-- A stretch goes on up to an end. -/
  goesOn : ∀ s ∈ stretches, s = Stretch.ofRest s.start (text.drop (s.start + 1))
  /-- The stretches are in order and do not overlap. -/
  inOrder : stretches.Pairwise fun s s' => s.stop ≤ s'.start

namespace LaidOut

variable {text rest : List Char} {i : Nat} {stretches : List Stretch}

theorem nil (text : List Char) (i : Nat) : LaidOut text i [] :=
  ⟨nofun, nofun, .nil⟩

/-- What stands behind a place stands behind an earlier one. -/
theorem mono {j : Nat} (h : LaidOut text j stretches) (hij : i ≤ j) : LaidOut text i stretches :=
  { h with starts := fun s hs => ⟨hij.trans (h.starts s hs).1, (h.starts s hs).2⟩ }

/-- A stretch in front of others that stand behind it. -/
theorem cons (hdrop : text.drop i = '@' :: rest)
    (h : LaidOut text (Stretch.ofRest i rest).stop stretches) :
    LaidOut text i (Stretch.ofRest i rest :: stretches) where
  starts := by
    have hle : i ≤ (Stretch.ofRest i rest).stop := Nat.le_add_right _ _
    exact List.forall_mem_cons.2 ⟨⟨Nat.le_refl i, getElem?_of_drop hdrop⟩, (h.mono hle).starts⟩
  goesOn := by
    refine List.forall_mem_cons.2 ⟨?_, h.goesOn⟩
    change Stretch.ofRest i rest = Stretch.ofRest i (text.drop (i + 1))
    rw [drop_succ_of_drop hdrop]
  inOrder := List.pairwise_cons.2 ⟨fun s hs => (h.starts s hs).1, h.inOrder⟩

/-- Some of the stretches. -/
theorem filter (h : LaidOut text i stretches) (p : Stretch → Bool) :
    LaidOut text i (stretches.filter p) where
  starts s hs := h.starts s (List.mem_of_mem_filter hs)
  goesOn s hs := h.goesOn s (List.mem_of_mem_filter hs)
  inOrder := h.inOrder.filter p

/-- Of two stretches the one that starts first stops before the other starts. -/
theorem stop_le (h : LaidOut text i stretches) {s s' : Stretch} (hs : s ∈ stretches)
    (hs' : s' ∈ stretches) (hlt : s.start < s'.start) : s.stop ≤ s'.start := by
  have hforth : stretches.Pairwise fun t t' => t.start < t'.start → t.stop ≤ t'.start :=
    h.inOrder.imp fun {t t'} hstop (_ : t.start < t'.start) => hstop
  have hback : stretches.Pairwise (flip fun t t' => t.start < t'.start → t.stop ≤ t'.start) := by
    refine h.inOrder.imp fun {t t'} hstop hlt => ?_
    have hle : t.start ≤ t.stop := Nat.le_add_right _ _
    omega
  exact hforth.forall_of_forall_of_flip (fun _ _ hself => absurd hself (Nat.lt_irrefl _)) hback hs
    hs' hlt

end LaidOut

section Places

variable {text rest : List Char} {i : Nat}

/-- A stretch and what stands behind it. -/
theorem chars_append_dropWhile (i : Nat) (rest : List Char) :
    (Stretch.ofRest i rest).chars ++ rest.dropWhile (!isTerminator ·) = '@' :: rest :=
  congrArg ('@' :: ·) List.takeWhile_append_dropWhile

/-- What stands behind a stretch. -/
theorem drop_stop (hdrop : text.drop i = '@' :: rest) :
    text.drop (Stretch.ofRest i rest).stop = rest.dropWhile (!isTerminator ·) := by
  rw [Stretch.stop, ← List.drop_drop]
  change (text.drop i).drop _ = _
  rw [hdrop, ← chars_append_dropWhile i, List.drop_left]

/-- What stands in front of the end of a stretch. -/
theorem take_stop (hdrop : text.drop i = '@' :: rest) :
    text.take (Stretch.ofRest i rest).stop = text.take i ++ (Stretch.ofRest i rest).chars := by
  rw [Stretch.stop, List.take_add]
  change text.take i ++ (text.drop i).take _ = _
  rw [hdrop, ← chars_append_dropWhile i, List.take_left]

/-- What the scanner finds is laid out in the text, however it counts quotes. -/
theorem laidOut_stretchesFrom (within quoted : Bool) (hdrop : text.drop i = rest) :
    LaidOut text i (stretchesFrom within quoted i rest) := by
  induction quoted, i, rest using stretchesFrom.induct within with
  | case1 quoted i =>
    rw [stretchesFrom]
    exact .nil text i
  | case2 quoted i rest ih =>
    rw [stretchesFrom, if_pos rfl]
    exact (ih (drop_succ_of_drop hdrop)).mono (Nat.le_succ i)
  | case3 quoted i c rest hquote hskip ih =>
    rw [stretchesFrom, if_neg hquote, if_pos hskip]
    exact (ih (drop_succ_of_drop hdrop)).mono (Nat.le_succ i)
  | case4 quoted i c rest hquote hskip s ih =>
    obtain ⟨rfl, rfl⟩ := eq_at_of_not_skipped hskip
    rw [stretchesFrom_at]
    exact .cons hdrop (ih (drop_stop hdrop))

end Places

/-! ## Stretches outside of quoted pieces -/

/-- A place outside of all quoted pieces: an even number of quotes stands in front of it. -/
def Outside (text : List Char) (i : Nat) : Prop := (text.take i).count '\'' % 2 = 0

instance (text : List Char) (i : Nat) : Decidable (Outside text i) :=
  inferInstanceAs (Decidable (_ = _))

theorem outside_iff {text : List Char} {i : Nat} :
    Outside text i ↔ oddQuotes (text.take i) = false := by
  simp [Outside, oddQuotes]

/-- The stretches are those that stand outside of all quoted pieces. -/
structure OutsideQuotes (text : List Char) (i : Nat) (stretches : List Stretch) : Prop
    extends LaidOut text i stretches where
  /-- Every stretch starts outside of all quoted pieces. -/
  outside : ∀ s ∈ stretches, Outside text s.start
  /-- Every at sign outside of all quoted pieces starts a stretch or is inside of one. -/
  all : ∀ j, i ≤ j → text[j]? = some '@' → Outside text j →
    ∃ s ∈ stretches, s.start ≤ j ∧ j < s.stop

namespace OutsideQuotes

variable {text rest : List Char} {i : Nat} {stretches others : List Stretch}

/-- Behind the end of the text there are none. -/
theorem nil (h : text.drop i = []) : OutsideQuotes text i [] where
  toLaidOut := .nil text i
  outside := nofun
  all j hij hat _ := by
    rw [List.getElem?_eq_none ((List.drop_eq_nil_iff.1 h).trans hij)] at hat
    cases hat

/-- A character that is no at sign outside of quoted pieces is passed over. -/
theorem skip (h : OutsideQuotes text (i + 1) stretches)
    (hskip : text[i]? = some '@' → ¬ Outside text i) : OutsideQuotes text i stretches where
  toLaidOut := h.toLaidOut.mono (Nat.le_succ i)
  outside := h.outside
  all j hij hat houtside := by
    rcases Nat.eq_or_lt_of_le hij with rfl | hlt
    · exact absurd houtside (hskip hat)
    · exact h.all j hlt hat houtside

/-- An at sign outside of quoted pieces starts a stretch. -/
theorem cons (hdrop : text.drop i = '@' :: rest) (houtside : Outside text i)
    (h : OutsideQuotes text (Stretch.ofRest i rest).stop stretches) :
    OutsideQuotes text i (Stretch.ofRest i rest :: stretches) where
  toLaidOut := .cons hdrop h.toLaidOut
  outside := List.forall_mem_cons.2 ⟨houtside, h.outside⟩
  all j hij hat hj := by
    by_cases hwithin : j < (Stretch.ofRest i rest).stop
    · exact ⟨_, List.mem_cons_self, hij, hwithin⟩
    · obtain ⟨s, hs, hplace⟩ := h.all j (Nat.le_of_not_lt hwithin) hat hj
      exact ⟨s, List.mem_cons_of_mem _ hs, hplace⟩

/-- A stretch is also among others that stand outside of quoted pieces, if those that start in front
of it are among these. -/
theorem mem_of_before (h : OutsideQuotes text i stretches) (h' : OutsideQuotes text i others)
    {s : Stretch} (hs : s ∈ stretches)
    (hbefore : ∀ t ∈ others, t.start < s.start → t ∈ stretches) : s ∈ others := by
  obtain ⟨hle, hat⟩ := h.starts s hs
  obtain ⟨t, ht, hstart, hstop⟩ := h'.all s.start hle hat (h.outside s hs)
  rcases Nat.eq_or_lt_of_le hstart with heq | hlt
  · rw [h.goesOn s hs, ← heq, ← h'.goesOn t ht]
    exact ht
  · have hapart : t.stop ≤ s.start := h.stop_le (hbefore t ht hlt) hs hlt
    omega

/-- The stretches outside of quoted pieces are determined by the text. -/
theorem unique (h : OutsideQuotes text i stretches) (h' : OutsideQuotes text i others) :
    stretches = others := by
  have hsame : ∀ n, ∀ s : Stretch, s.start = n → (s ∈ stretches ↔ s ∈ others) := by
    intro n
    induction n using Nat.strong_induction_on with
    | _ n ih =>
      rintro s rfl
      exact ⟨fun hs => h.mem_of_before h' hs fun t ht hlt => (ih t.start hlt t rfl).2 ht,
        fun hs => h'.mem_of_before h hs fun t ht hlt => (ih t.start hlt t rfl).1 ht⟩
  have hsorted {l : List Stretch} (hl : OutsideQuotes text i l) :
      l.Pairwise fun s s' => s.start < s'.start := by
    refine (List.Pairwise.and_mem.1 hl.inOrder).imp fun {s s'} hpair => ?_
    have hlength : 0 < s.chars.length := by
      rw [hl.goesOn s hpair.1]
      exact Nat.succ_pos _
    exact Nat.lt_of_lt_of_le (Nat.lt_add_of_pos_right hlength) hpair.2.2
  have : Std.Antisymm fun s s' : Stretch => s.start < s'.start :=
    ⟨fun s s' hlt hgt => absurd hgt (Nat.lt_asymm hlt)⟩
  have : Std.Irrefl fun s s' : Stretch => s.start < s'.start := ⟨fun s => Nat.lt_irrefl _⟩
  exact (hsorted h).eq_of_mem_iff (hsorted h') fun s => hsame s.start s rfl

end OutsideQuotes

/-- The scanner that counts all quotes finds the stretches outside of quoted pieces. -/
theorem outsideQuotes_stretchesFrom {text rest : List Char} {i : Nat} {quoted : Bool}
    (hdrop : text.drop i = rest) (hquoted : oddQuotes (text.take i) = quoted) :
    OutsideQuotes text i (stretchesFrom true quoted i rest) := by
  have hnext {c : Char} {i : Nat} {rest : List Char} (hdrop : text.drop i = c :: rest) :
      oddQuotes (text.take (i + 1)) = (oddQuotes (text.take i) ^^ oddQuotes [c]) := by
    rw [List.take_add, hdrop, oddQuotes_append]
    rfl
  induction quoted, i, rest using stretchesFrom.induct true with
  | case1 quoted i =>
    rw [stretchesFrom]
    exact .nil hdrop
  | case2 quoted i rest ih =>
    rw [stretchesFrom, if_pos rfl]
    refine (ih (drop_succ_of_drop hdrop) ?_).skip fun hat => ?_
    · rw [hnext hdrop, hquoted]
      exact Bool.xor_true quoted
    · rw [getElem?_of_drop hdrop] at hat
      cases hat
  | case3 quoted i c rest hquote hskip ih =>
    rw [stretchesFrom, if_neg hquote, if_pos hskip]
    refine (ih (drop_succ_of_drop hdrop) ?_).skip fun hat => ?_
    · rw [hnext hdrop, hquoted, oddQuotes_cons_of_ne hquote]
      exact Bool.xor_false quoted
    · rw [getElem?_of_drop hdrop, Option.some.injEq] at hat
      rw [outside_iff, hquoted]
      simpa [hat] using hskip
  | case4 quoted i c rest hquote hskip s ih =>
    obtain ⟨rfl, rfl⟩ := eq_at_of_not_skipped hskip
    rw [stretchesFrom_at]
    refine .cons hdrop (outside_iff.2 hquoted) (ih (drop_stop hdrop) ?_)
    rw [take_stop hdrop, oddQuotes_append, hquoted, Bool.false_xor, Bool.true_and]

/-! ## The whole -/

/-- The placeholders of a text with their places, as the scanner finds them. -/
def placed (text : String) : List Stretch :=
  (stretchesFrom false false 0 text.toList).filter Stretch.isPlaceholder

/-- The placeholders with their places as a scanner finds them that counts all quotes. -/
def placedOutside (text : String) : List Stretch :=
  (stretchesFrom true false 0 text.toList).filter Stretch.isPlaceholder

/-- The placeholders of a text are what names something among the stretches outside of quoted
pieces. -/
def StandOutside (text : String) : Prop :=
  ∃ stretches, OutsideQuotes text.toList 0 stretches ∧
    placed text = stretches.filter Stretch.isPlaceholder

/-- Every stretch of the scanner has an even number of quotes. -/
def ClosesWithin (text : String) : Prop :=
  ∀ s ∈ stretchesFrom false false 0 text.toList, oddQuotes s.chars = false

/-- The placeholders stand where the scanner that counts all quotes finds them. -/
theorem standOutside_iff_placed (text : String) :
    StandOutside text ↔ placed text = placedOutside text := by
  have hall : OutsideQuotes text.toList 0 (stretchesFrom true false 0 text.toList) :=
    outsideQuotes_stretchesFrom rfl rfl
  constructor
  · rintro ⟨stretches, hstretches, hplaced⟩
    rw [hplaced, hstretches.unique hall]
    rfl
  · exact fun h => ⟨_, hall, h⟩

/-- Quotes need not be counted within stretches that have an even number of them. -/
theorem stretchesFrom_eq {quoted : Bool} {i : Nat} {text : List Char}
    (h : ∀ s ∈ stretchesFrom false quoted i text, oddQuotes s.chars = false) :
    stretchesFrom true quoted i text = stretchesFrom false quoted i text := by
  induction quoted, i, text using stretchesFrom.induct false with
  | case1 quoted i => rw [stretchesFrom, stretchesFrom]
  | case2 quoted i rest ih =>
    rw [stretchesFrom, if_pos rfl] at h
    rw [stretchesFrom, if_pos rfl, ih h, stretchesFrom, if_pos rfl]
  | case3 quoted i c rest hquote hskip ih =>
    rw [stretchesFrom, if_neg hquote, if_pos hskip] at h
    rw [stretchesFrom, if_neg hquote, if_pos hskip, ih h,
      stretchesFrom, if_neg hquote, if_pos hskip]
  | case4 quoted i c rest hquote hskip s ih =>
    obtain ⟨rfl, rfl⟩ := eq_at_of_not_skipped hskip
    rw [Bool.false_and] at ih
    rw [stretchesFrom_at, List.forall_mem_cons, Bool.false_and] at h
    rw [stretchesFrom_at, stretchesFrom_at, h.1, Bool.and_false, Bool.false_and, ih h.2]

/-- What names something has two characters or more, starts with one at sign
only, and has no end. -/
theorem named_of_isPlaceholder {s : Stretch} {rest : List Char}
    (hs : s = Stretch.ofRest s.start rest) (h : s.isPlaceholder = true) :
    2 ≤ s.chars.length ∧ ¬ ['@', '@'] <+: s.chars ∧
      ∀ c ∈ s.chars, isTerminator c = false := by
  rw [hs] at h ⊢
  change isName (rest.takeWhile (!isTerminator ·)) = true at h
  change 2 ≤ ('@' :: rest.takeWhile (!isTerminator ·)).length ∧
    ¬ ['@', '@'] <+: '@' :: rest.takeWhile (!isTerminator ·) ∧
    ∀ c ∈ '@' :: rest.takeWhile (!isTerminator ·), isTerminator c = false
  have hnone : ∀ c ∈ rest.takeWhile (!isTerminator ·), isTerminator c = false := fun c hc => by
    simpa using List.mem_takeWhile_imp hc
  cases hname : rest.takeWhile (!isTerminator ·) with
  | nil => simp [hname, isName] at h
  | cons c name =>
    have hc : c ≠ '@' := by simpa [hname, isName] using h
    rw [hname] at hnone
    refine ⟨Nat.le_add_left 2 name.length, fun htwo => ?_, List.forall_mem_cons.2 ⟨rfl, hnone⟩⟩
    rw [List.cons_prefix_cons, List.cons_prefix_cons] at htwo
    exact hc htwo.2.1.symm

/-- Where the placeholders of a text stand. -/
structure PlacesPlaceholders (text : String) : Prop where
  /-- These are the placeholders. -/
  read : (placed text).map (String.ofList ·.chars) = placeholders text
  /-- Each starts at an at sign and goes on up to an end; they are in order and do not overlap. -/
  laidOut : LaidOut text.toList 0 (placed text)
  /-- Each has two characters or more, does not start with two at signs, and has no end in it. -/
  named : ∀ s ∈ placed text, 2 ≤ s.chars.length ∧ ¬ ['@', '@'] <+: s.chars ∧
    ∀ c ∈ s.chars, isTerminator c = false
  /-- They are what names something outside of quoted pieces exactly if they are found
  by counting all quotes. -/
  outside_iff : StandOutside text ↔ placed text = placedOutside text
  /-- In particular if each placeholder and each variable of the database has an even number of
  quotes. -/
  outside : ClosesWithin text → StandOutside text

/-- The placeholders of every text. -/
theorem placesPlaceholders (text : String) : PlacesPlaceholders text := by
  have hlaidOut : LaidOut text.toList 0 (stretchesFrom false false 0 text.toList) :=
    laidOut_stretchesFrom false false rfl
  refine ⟨?_, hlaidOut.filter _, fun s hs => ?_, standOutside_iff_placed text, fun h => ?_⟩
  · rw [placeholders, tokens_eq false 0, List.map_map]
    rfl
  · obtain ⟨hmem, hname⟩ := List.mem_filter.1 hs
    exact named_of_isPlaceholder (hlaidOut.goesOn s hmem) hname
  · rw [standOutside_iff_placed, placed, placedOutside, stretchesFrom_eq h]

/-- A variable of the database with a quote behind it: a word of the quoted piece is taken for a
placeholder. -/
theorem not_standOutside_atHome :
    (∃ s ∈ placed "SELECT @@SERVERNAME+' at @home', @n",
      s.chars = "@home'".toList ∧ ¬ Outside "SELECT @@SERVERNAME+' at @home', @n".toList s.start) ∧
      ¬ StandOutside "SELECT @@SERVERNAME+' at @home', @n" := by
  rw [standOutside_iff_placed]
  decide +kernel

end RowQuery.Sql
