import RowQuery.Proofs.Model.Release
import RowQuery.Proofs.Sql.PagedRows

/-!
# Results of a window

A sequence over a result set in memory counts the rows that its cursor goes to, passes over those in
front of its window, and stops where the window ends, where a row cannot be read, or where no result
can be made of one.  This module says which results come out of that.

Main results:

- Definition {lit}`windowResults`: the results of the rows of a window, up to the first fault.
- Theorem {lit}`Sequence.Gives.drain_eq`: a sequence that gives some results can be asked for any
  number of them.
- Theorem {lit}`Sequence.advances_drain_le`: no cursor is advanced past the end of the window.
- Theorem {lit}`Sequence.drain_memory`: a result set in memory gives the results of its window.
-/

namespace RowQuery

open Sql

/-! ## The expected results -/

/-- The row of a result set that has these values.  Values left out at its end are null. -/
def Row.ofValues (fields : List Field) (values : List Value) : Row :=
  ⟨fields, fun ordinal =>
    if ordinal < fields.length then .ok (values.getD ordinal .null)
    else .error (Fault.of (.row (.ordinal ordinal)))⟩

/-- The results up to the first fault, which is the last of them. -/
def upToFault {α : Type} : List (Except Fault α) → List (Except Fault α)
  | [] => []
  | .error f :: _ => [.error f]
  | .ok a :: rest => .ok a :: upToFault rest

/-- The rows in front of the one that cannot be read. -/
def readable {β : Type} (rows : List β) : Option Nat → List β
  | none => rows
  | some failAt => rows.take failAt

/-- The rows of a window; all rows if there is none. -/
def windowed {β : Type} (limiter : Option RowLimiter) (rows : List β) : List β :=
  match limiter with
  | none => rows
  | some l => slice l.skip.toNat (l.take.map UInt64.toNat) rows

/-- A row lies in front of the end of the window.  The end is a word, so a window ends at the
greatest word at the latest. -/
def BeforeEnd (limiter : Option RowLimiter) (index : Nat) : Prop :=
  ∀ l ∈ limiter, ∀ take ∈ l.take, index < min (l.skip.toNat + take.toNat) maxCount.toNat

instance (limiter : Option RowLimiter) (index : Nat) : Decidable (BeforeEnd limiter index) :=
  match limiter with
  | none => isTrue nofun
  | some ⟨_, none⟩ => isTrue fun _ hl _ htake => by cases hl; cases htake
  | some ⟨skip, some take⟩ =>
    decidable_of_iff (index < min (skip.toNat + take.toNat) maxCount.toNat)
      ⟨fun h _ hl _ htake => by cases hl; cases htake; exact h, fun h => h _ rfl _ rfl⟩

/-- The fault of the row that cannot be read, if the sequence goes there. -/
def faultBehind {α : Type} (limiter : Option RowLimiter) (count : Nat) :
    Option Nat → List (Except Fault α)
  | none => []
  | some failAt =>
    if failAt ≤ count ∧ BeforeEnd limiter failAt then
      [.error (Fault.of (.row (.unreadable failAt)))]
    else []

/-- The results of the rows of a window and the fault behind them, up to the first fault. -/
def windowResults {α : Type} (build : Row → Except Fault α) (limiter : Option RowLimiter)
    (fields : List Field) (rows : List (List Value)) (failAt : Option Nat) :
    List (Except Fault α) :=
  upToFault <|
    (windowed limiter (readable rows failAt)).map
        (fun values => build (Row.ofValues fields values)) ++
      faultBehind limiter rows.length failAt

section Faults

variable {α β : Type} {limiter : Option RowLimiter} {failAt : Option Nat}

/-- A row in front of one that lies in front of the end does so too. -/
theorem BeforeEnd.mono {index later : Nat} (h : BeforeEnd limiter later) (hle : index ≤ later) :
    BeforeEnd limiter index :=
  fun l hl take htake => Nat.lt_of_le_of_lt hle (h l hl take htake)

/-- The number of rows in front of the one that cannot be read. -/
theorem length_readable_le (rows : List β) (failAt : Option Nat) :
    (readable rows failAt).length ≤ rows.length ∧
      ∀ i ∈ failAt, (readable rows failAt).length ≤ i := by
  cases failAt with
  | none => simp [readable]
  | some i =>
    have htake : (readable rows (some i)).length = min i rows.length := List.length_take
    rw [htake]
    refine ⟨Nat.min_le_right _ _, ?_⟩
    intro j hj
    cases hj
    exact Nat.min_le_left _ _

/-- The rows that can be read are rows. -/
theorem getElem?_of_readable {rows : List β} {index : Nat} {row : β}
    (h : (readable rows failAt)[index]? = some row) : rows[index]? = some row := by
  cases failAt with
  | none => exact h
  | some i =>
    rw [readable, List.getElem?_take] at h
    split at h
    · exact h
    · cases h

/-- Behind the end of the window no fault is met. -/
theorem faultBehind_of_not_beforeEnd {index : Nat} (count : Nat) (hpast : ¬BeforeEnd limiter index)
    (hle : ∀ i ∈ failAt, index ≤ i) : faultBehind (α := α) limiter count failAt = [] := by
  cases failAt with
  | none => rfl
  | some i => exact if_neg fun h => hpast (h.2.mono (hle i rfl))

/-- All rows can be read if the one behind those that can be read is not the faulty one. -/
theorem readable_eq_of_ne {rows : List β} (hne : failAt ≠ some (readable rows failAt).length) :
    readable rows failAt = rows ∧ faultBehind (α := α) limiter rows.length failAt = [] := by
  cases failAt with
  | none => exact ⟨rfl, rfl⟩
  | some i =>
    have hlt : rows.length < i := by
      simp only [readable, List.length_take, ne_eq, Option.some.injEq] at hne
      omega
    refine ⟨List.take_of_length_le (Nat.le_of_lt hlt), if_neg ?_⟩
    intro h
    exact Nat.not_le_of_lt hlt h.1

end Faults

/-! ## Sequences that give results -/

namespace Sequence

variable {σ α : Type} [Cursor σ]

/-- A sequence gives these results, one for each call, and is at its end behind them. -/
inductive Gives : Sequence σ α → List (Except Fault α) → Prop
  | nil {s s' : Sequence σ α} (hnext : s.next = (none, s')) (hdone : s'.done = true) : Gives s []
  | cons {s s' : Sequence σ α} {result : Except Fault α} {results : List (Except Fault α)}
      (hnext : s.next = (some result, s')) (hrest : Gives s' results) :
      Gives s (result :: results)

/-- A sequence that is asked for any number of results gives the first of its results, and is at its
end if there are fewer. -/
theorem Gives.drain_eq {s : Sequence σ α} {results : List (Except Fault α)} (h : Gives s results)
    (bound : Nat) :
    (s.drain bound).1 = results.take bound ∧
      (results.length < bound → (s.drain bound).2.done = true) := by
  induction h generalizing bound with
  | nil hnext hdone =>
    cases bound with
    | zero => simp [drain]
    | succ bound => simp [drain, hnext, hdone]
  | cons hnext _ ih =>
    cases bound with
    | zero => simp [drain]
    | succ bound =>
      rcases ih bound with ⟨hresults, hdone⟩
      rw [drain, hnext]
      refine ⟨?_, ?_⟩
      · simp [hresults]
      · intro hlength
        exact hdone (Nat.lt_of_succ_lt_succ hlength)

/-- A sequence that was closed gives nothing. -/
theorem gives_close (s : Sequence σ α) : Gives s.close [] := by
  have hnext : s.close.next = (none, s.close) := by rw [next, if_pos s.done_close]
  exact .nil hnext s.done_close

section Open

variable {s : Sequence σ α} {cursor : σ} {results : List (Except Fault α)}

/-- A sequence whose window lies behind gives nothing. -/
theorem gives_of_pastWindow (hopen : ¬s.done = true) (hpast : s.isPastWindow = true) :
    Gives s [] := by
  have hnext : s.next = (none, s.close) := by rw [next, if_neg hopen, if_pos hpast]
  exact .nil hnext s.done_close

/-- A sequence without further rows gives nothing. -/
theorem gives_of_exhausted (hopen : ¬s.done = true) (hpast : ¬s.isPastWindow = true)
    (hadvance : Cursor.advance s.cursor = (.ok false, cursor)) : Gives s [] := by
  have hnext : s.next = (none, { s with cursor }.close) := by
    rw [next, if_neg hopen, if_neg hpast, hadvance]
  exact .nil hnext (done_close _)

/-- A fault of the cursor is the last result. -/
theorem gives_of_fault {f : Fault} (hopen : ¬s.done = true) (hpast : ¬s.isPastWindow = true)
    (hadvance : Cursor.advance s.cursor = (.error f, cursor)) : Gives s [.error f] := by
  have hnext : s.next = (some (.error f), { s with cursor }.close) := by
    rw [next, if_neg hopen, if_neg hpast, hadvance]
  exact .cons hnext (gives_close _)

/-- A row outside of the window does not matter. -/
theorem gives_of_passed (hopen : ¬s.done = true) (hpast : ¬s.isPastWindow = true)
    (hadvance : Cursor.advance s.cursor = (.ok true, cursor)) (hin : ¬s.isInWindow = true)
    (h : Gives (s.moved cursor) results) : Gives s results := by
  have hsame : s.next = (s.moved cursor).next := by
    rw [next, if_neg hopen, if_neg hpast, hadvance]
    exact if_neg hin
  cases h with
  | nil hnext hdone => exact .nil (hsame.trans hnext) hdone
  | cons hnext hrest => exact .cons (hsame.trans hnext) hrest

/-- A row in the window gives its result; a fault is the last one. -/
theorem gives_of_row (hopen : ¬s.done = true) (hpast : ¬s.isPastWindow = true)
    (hadvance : Cursor.advance s.cursor = (.ok true, cursor)) (hin : s.isInWindow = true)
    (h : Gives (s.moved cursor) (upToFault results)) :
    Gives s (upToFault (s.build (Cursor.row cursor) :: results)) := by
  cases hbuild : s.build (Cursor.row cursor) with
  | ok a =>
    have hnext : s.next = (some (.ok a), s.moved cursor) := by
      rw [next, if_neg hopen, if_neg hpast, hadvance]
      simp only [if_pos hin, hbuild]
    exact .cons hnext h
  | error f =>
    have hnext : s.next = (some (.error f), (s.moved cursor).close) := by
      rw [next, if_neg hopen, if_neg hpast, hadvance]
      simp only [if_pos hin, hbuild]
    exact .cons hnext (gives_close _)

end Open

/-! ## Rows behind the window -/

omit [Cursor σ] in
/-- The window does not lie behind as long as the next row is in front of its end. -/
theorem isPastWindow_eq_false_iff (s : Sequence σ α) :
    s.isPastWindow = false ↔ BeforeEnd s.limiter s.index.toNat := by
  unfold isPastWindow
  cases s.limiter with
  | none => simp [BeforeEnd]
  | some l =>
    rw [Bool.eq_false_iff, ne_eq, RowLimiter.isExhausted_iff]
    simp [BeforeEnd]

/-- As long as a sequence is open it counts how often its cursor was advanced, and at no time that
was more often than there are rows up to the end of the window. -/
structure Within (l : RowLimiter) (take : UInt64) (s : Sequence (Counted σ) α) : Prop where
  limiter_eq : s.limiter = some l
  counted : s.done = false → s.cursor.advances = s.index.toNat
  advances_le : s.cursor.advances ≤ min (l.skip.toNat + take.toNat) maxCount.toNat

variable {l : RowLimiter} {take : UInt64}

/-- To close a sequence advances nothing, and it counts no further. -/
theorem within_close {s : Sequence (Counted σ) α} (hlimiter : s.limiter = some l)
    (hle : s.cursor.advances ≤ min (l.skip.toNat + take.toNat) maxCount.toNat) :
    Within l take s.close := by
  unfold close
  split
  · rename_i hdone
    exact ⟨hlimiter, fun hopen => absurd hdone (Bool.eq_false_iff.1 hopen), hle⟩
  · exact ⟨hlimiter, nofun, hle⟩

/-- A cursor that is advanced in front of the end of the window. -/
theorem Within.advanced {s : Sequence (Counted σ) α} (h : Within l take s)
    (htake : l.take = some take) (hopen : s.done = false) (hpast : s.isPastWindow = false)
    {answer : Except Fault Bool} {cursor : Counted σ}
    (hadvance : Cursor.advance s.cursor = (answer, cursor)) :
    Within l take (s.moved cursor) := by
  have hbefore := (s.isPastWindow_eq_false_iff).1 hpast l h.limiter_eq take htake
  have hmax : s.index.toNat + 1 < 2 ^ 64 := by
    rw [toNat_maxCount] at hbefore
    omega
  have hcounted := h.counted hopen
  have hadvances : cursor.advances = s.cursor.advances + 1 := by
    cases hadvance
    rfl
  refine ⟨h.limiter_eq, fun _ => ?_, ?_⟩
  · change cursor.advances = (s.index + 1).toNat
    rw [UInt64.toNat_add, UInt64.toNat_one, Nat.mod_eq_of_lt hmax, hadvances, hcounted]
  · change cursor.advances ≤ _
    omega

/-- A call keeps within the window. -/
theorem Way.within {s s' : Sequence (Counted σ) α} {requests : List Request}
    {result : Option (Except Fault α)} (hway : Way s requests result s')
    (htake : l.take = some take) (h : Within l take s) : Within l take s' := by
  induction hway with
  | ended => exact h
  | pastWindow => exact within_close h.limiter_eq h.advances_le
  | fault hopen hpast hadvance =>
    exact within_close h.limiter_eq (h.advanced htake hopen hpast hadvance).advances_le
  | exhausted hopen hpast hadvance =>
    exact within_close h.limiter_eq (h.advanced htake hopen hpast hadvance).advances_le
  | built hopen hpast hadvance => exact h.advanced htake hopen hpast hadvance
  | refused hopen hpast hadvance =>
    exact within_close h.limiter_eq (h.advanced htake hopen hpast hadvance).advances_le
  | passed hopen hpast hadvance _ _ ih => exact ih (h.advanced htake hopen hpast hadvance)

/-- Any number of calls keep within the window. -/
theorem within_drain {s : Sequence (Counted σ) α} (htake : l.take = some take)
    (h : Within l take s) (bound : Nat) : Within l take (s.drain bound).2 := by
  induction bound generalizing s with
  | zero => exact h
  | succ bound ih =>
    have hnext := (way_next s).within htake h
    rw [drain]
    split
    · rename_i s' heq
      rwa [heq] at hnext
    · rename_i heq
      rw [heq] at hnext
      exact ih hnext

/-- Whatever the cursor, it is not advanced past the end of the window. -/
theorem advances_drain_le (cursor : σ) (build : Row → Except Fault α) (htake : l.take = some take)
    (bound : Nat) :
    (((ofCursor (Counted.ofCursor cursor) build).limit (some l)).drain bound).2.cursor.advances ≤
      l.skip.toNat + take.toNat := by
  have hstart : Within l take ((ofCursor (Counted.ofCursor cursor) build).limit (some l)) :=
    ⟨rfl, fun _ => rfl, Nat.zero_le _⟩
  have hend := (within_drain htake hstart bound).advances_le
  omega

end Sequence

/-! ## Result sets in memory -/

namespace MemoryCursor

variable {c : MemoryCursor} {count : Nat}

/-- A result set in memory behind so many of its rows. -/
def behind (c : MemoryCursor) (count : Nat) : MemoryCursor :=
  { c with position := if count = 0 then none else some (count - 1) }

/-- The row behind so many rows comes next. -/
theorem next_behind (c : MemoryCursor) (count : Nat) : (c.behind count).next = count := by
  unfold behind next
  cases count <;> rfl

/-- An open result set goes from row to row, up to the one that cannot be read. -/
theorem advance_behind (hopen : c.closed = false) (hcount : count ≤ c.rows.length) :
    (c.behind count).advance =
      if c.failAt = some count then
        (.error (Fault.of (.row (.unreadable count))), c.behind count)
      else (.ok (count < c.rows.length), c.behind (count + 1)) := by
  have hclosed : ¬(c.behind count).closed = true := Bool.eq_false_iff.1 hopen
  rw [advance, if_neg hclosed, next_behind]
  by_cases hfail : c.failAt = some count
  · rw [if_pos hfail]
    exact if_pos hfail
  · have hposition : min count (c.behind count).rows.length = count := Nat.min_eq_left hcount
    rw [if_neg hfail, hposition]
    exact if_neg hfail

/-- Behind a row the cursor shows its values. -/
theorem row_behind (hopen : c.closed = false) {values : List Value}
    (hvalues : c.rows[count]? = some values) :
    (c.behind (count + 1)).row = Row.ofValues c.fields values := by
  have hcurrent : (c.behind (count + 1)).current = .ok values := by
    simp [current, behind, hopen, hvalues]
  refine congrArg (Row.mk c.fields) (funext fun ordinal => ?_)
  unfold valueAt
  rw [hcurrent]
  rfl

end MemoryCursor

namespace Sequence

variable {α : Type} {build : Row → Except Fault α} {limiter : Option RowLimiter}

/-- A sequence over a result set in memory behind so many of its rows. -/
def behind (c : MemoryCursor) (build : Row → Except Fault α) (limiter : Option RowLimiter)
    (count : Nat) : Sequence (Counted MemoryCursor) α :=
  { cursor := ⟨c.behind count, count, 0⟩
    build
    limiter
    index := UInt64.ofNat count
    done := false }

/-- The rows that a sequence keeps, where the first of them has an index. -/
def keptFrom {β : Type} (limiter : Option RowLimiter) (index : UInt64) (rows : List β) : List β :=
  match limiter with
  | none => rows
  | some l => l.kept index rows

/-- A sequence keeps a row that it finds in its window, and none behind the window. -/
theorem keptFrom_cons {β : Type} (s : Sequence (Counted MemoryCursor) α) (row : β)
    (rest : List β) :
    keptFrom s.limiter s.index (row :: rest) =
      if s.isPastWindow then []
      else if s.isInWindow then row :: keptFrom s.limiter (s.index + 1) rest
      else keptFrom s.limiter (s.index + 1) rest := by
  unfold isPastWindow isInWindow
  cases s.limiter <;> rfl

/-- The rows that a sequence keeps from the start are those of its window. -/
theorem keptFrom_zero {β : Type} (limiter : Option RowLimiter) {rows : List β}
    (hrows : rows.length ≤ maxCount.toNat) : keptFrom limiter 0 rows = windowed limiter rows := by
  cases limiter with
  | none => rfl
  | some l => exact l.kept_eq_slice hrows

/-- To go to a row moves the sequence behind it. -/
theorem moved_behind (c : MemoryCursor) (count : Nat) :
    (behind c build limiter count).moved ⟨c.behind (count + 1), count + 1, 0⟩ =
      behind c build limiter (count + 1) := by
  simp [behind, moved, UInt64.ofNat_add]

/-- The cursor counts that it is advanced. -/
theorem advance_cursor_behind (build : Row → Except Fault α) (limiter : Option RowLimiter)
    {c c' : MemoryCursor} {count : Nat} {answer : Except Fault Bool}
    (h : (c.behind count).advance = (answer, c')) :
    Cursor.advance (behind c build limiter count).cursor = (answer, ⟨c', count + 1, 0⟩) := by
  change (((c.behind count).advance).1,
    (⟨((c.behind count).advance).2, count + 1, 0⟩ : Counted _)) = _
  rw [h]

section Behind

variable {c : MemoryCursor} {count : Nat}

/-- The results of the rows that a sequence keeps, and of the fault behind them. -/
def resultsFrom (c : MemoryCursor) (build : Row → Except Fault α) (limiter : Option RowLimiter)
    (index : UInt64) (rest : List (List Value)) : List (Except Fault α) :=
  upToFault <|
    (keptFrom limiter index rest).map (fun values => build (Row.ofValues c.fields values)) ++
      faultBehind limiter c.rows.length c.failAt

/-- Where only a fault is left it is the only result. -/
theorem resultsFrom_of_keptFrom_nil {index : UInt64} {rest : List (List Value)}
    (h : keptFrom limiter index rest = []) :
    resultsFrom c build limiter index rest = faultBehind limiter c.rows.length c.failAt := by
  rw [resultsFrom, h, List.map_nil, List.nil_append]
  cases c.failAt with
  | none => rfl
  | some i =>
    simp only [faultBehind]
    split <;> rfl

/-- The window does not lie behind so many rows if they are in front of its end. -/
theorem isPastWindow_behind (hcount : count ≤ maxCount.toNat) :
    (behind c build limiter count).isPastWindow = false ↔ BeforeEnd limiter count := by
  have hindex : (UInt64.ofNat count).toNat = count :=
    UInt64.toNat_ofNat_of_lt' (Nat.lt_succ_of_le hcount)
  rw [isPastWindow_eq_false_iff]
  change BeforeEnd limiter (UInt64.ofNat count).toNat ↔ _
  rw [hindex]

/-- Behind the window there are no faults. -/
theorem faultBehind_of_pastWindow (hcount : count ≤ (readable c.rows c.failAt).length)
    (hmax : count ≤ maxCount.toNat) (hpast : (behind c build limiter count).isPastWindow = true) :
    faultBehind (α := α) limiter c.rows.length c.failAt = [] := by
  have hfaulty := (length_readable_le c.rows c.failAt).2
  refine faultBehind_of_not_beforeEnd _ ?_ fun i hi => Nat.le_trans hcount (hfaulty i hi)
  intro hbefore
  rw [(isPastWindow_behind hmax).2 hbefore] at hpast
  cases hpast

/-- Behind the last row that can be read a sequence gives the fault of the row behind it, if there
is one. -/
theorem gives_behind_last (hclosed : c.closed = false) (hrows : c.rows.length ≤ maxCount.toNat)
    (hlast : count = (readable c.rows c.failAt).length) :
    Gives (behind c build limiter count) (faultBehind limiter c.rows.length c.failAt) := by
  have hcount : count ≤ c.rows.length := hlast ▸ (length_readable_le c.rows c.failAt).1
  have hopen : ¬(behind c build limiter count).done = true := nofun
  have hadvance := c.advance_behind hclosed hcount
  by_cases hpast : (behind c build limiter count).isPastWindow = true
  · rw [faultBehind_of_pastWindow (Nat.le_of_eq hlast) (by omega) hpast]
    exact gives_of_pastWindow hopen hpast
  by_cases hfail : c.failAt = some count
  · have hbefore : BeforeEnd limiter count :=
      (isPastWindow_behind (by omega)).1 (Bool.eq_false_iff.2 hpast)
    have hfault : faultBehind (α := α) limiter c.rows.length c.failAt =
        [.error (Fault.of (.row (.unreadable count)))] := by
      rw [hfail]
      exact if_pos ⟨hcount, hbefore⟩
    rw [if_pos hfail] at hadvance
    rw [hfault]
    exact gives_of_fault hopen hpast (advance_cursor_behind _ _ hadvance)
  · have hreadable : readable c.rows c.failAt = c.rows ∧
        faultBehind (α := α) limiter c.rows.length c.failAt = [] :=
      readable_eq_of_ne (hlast ▸ hfail)
    rcases hreadable with ⟨hall, hfault⟩
    have hnone : ¬count < c.rows.length := by
      rw [← hall, ← hlast]
      exact Nat.lt_irrefl _
    rw [if_neg hfail, decide_eq_false hnone] at hadvance
    rw [hfault]
    exact gives_of_exhausted hopen hpast (advance_cursor_behind _ _ hadvance)

/-- What a sequence gives in front of a row follows from what it gives behind the row. -/
theorem gives_behind_row (hclosed : c.closed = false) (hrows : c.rows.length ≤ maxCount.toNat)
    {values : List Value} {rest : List (List Value)}
    (hread : (readable c.rows c.failAt)[count]? = some values)
    (h : Gives (behind c build limiter (count + 1))
      (resultsFrom c build limiter (UInt64.ofNat count + 1) rest)) :
    Gives (behind c build limiter count)
      (resultsFrom c build limiter (UInt64.ofNat count) (values :: rest)) := by
  rcases length_readable_le c.rows c.failAt with ⟨hreadable, hfaulty⟩
  have hlt : count < (readable c.rows c.failAt).length := (List.getElem?_eq_some_iff.1 hread).1
  have hfail : c.failAt ≠ some count := fun h => Nat.not_le_of_lt hlt (hfaulty count h)
  have hopen : ¬(behind c build limiter count).done = true := nofun
  have hrow : count < c.rows.length := Nat.lt_of_lt_of_le hlt hreadable
  have hadvance := c.advance_behind hclosed (Nat.le_of_lt hrow)
  rw [if_neg hfail, decide_eq_true hrow] at hadvance
  have hcounted := advance_cursor_behind build limiter hadvance
  have hkept : keptFrom limiter (UInt64.ofNat count) (values :: rest) = _ :=
    keptFrom_cons (behind c build limiter count) values rest
  rw [← moved_behind] at h
  by_cases hpast : (behind c build limiter count).isPastWindow = true
  · rw [if_pos hpast] at hkept
    rw [resultsFrom_of_keptFrom_nil hkept, faultBehind_of_pastWindow (by omega) (by omega) hpast]
    exact gives_of_pastWindow hopen hpast
  rw [if_neg hpast] at hkept
  by_cases hin : (behind c build limiter count).isInWindow = true
  · rw [if_pos hin] at hkept
    have hvalues := c.row_behind hclosed (getElem?_of_readable hread)
    rw [resultsFrom, hkept, List.map_cons, List.cons_append, ← hvalues]
    exact gives_of_row hopen hpast hcounted hin h
  · rw [if_neg hin] at hkept
    rw [resultsFrom, hkept]
    exact gives_of_passed hopen hpast hcounted hin h

end Behind

/-- Behind any number of its rows a sequence over a result set in memory gives the results of those
that it keeps of the others, and of the fault behind them. -/
theorem gives_behind {c : MemoryCursor} (hclosed : c.closed = false)
    (hrows : c.rows.length ≤ maxCount.toNat) {count : Nat} {rest : List (List Value)}
    (hrest : (readable c.rows c.failAt).drop count = rest)
    (hcount : count ≤ (readable c.rows c.failAt).length) :
    Gives (behind c build limiter count)
      (resultsFrom c build limiter (UInt64.ofNat count) rest) := by
  induction rest generalizing count with
  | nil =>
    have hkept : keptFrom limiter (UInt64.ofNat count) ([] : List (List Value)) = [] := by
      cases limiter <;> rfl
    rw [resultsFrom_of_keptFrom_nil hkept]
    exact gives_behind_last hclosed hrows
      (Nat.le_antisymm hcount (List.drop_eq_nil_iff.1 hrest))
  | cons values rest ih =>
    have hread : (readable c.rows c.failAt)[count]? = some values := by
      rw [← List.head?_drop, hrest, List.head?_cons]
    have hlt : count < (readable c.rows c.failAt).length := (List.getElem?_eq_some_iff.1 hread).1
    have hbehind : (readable c.rows c.failAt).drop (count + 1) = rest := by
      rw [← List.drop_drop, hrest, List.drop_one, List.tail_cons]
    have hnext : UInt64.ofNat (count + 1) = UInt64.ofNat count + 1 := UInt64.ofNat_add ..
    have hrestGives := ih hbehind hlt
    rw [hnext] at hrestGives
    exact gives_behind_row hclosed hrows hread hrestGives

/-- A sequence over fewer rows in memory than there are words, each of which can be read or not,
gives the results of its window in their order, up to the first fault of the factory or of a row
that cannot be read.  It goes to no row behind the window. -/
theorem drain_memory (build : Row → Except Fault α) (limiter : Option RowLimiter)
    (fields : List Field) {rows : List (List Value)} (failAt : Option Nat)
    (hrows : rows.length < UInt64.size) (bound : Nat) :
    let s := (ofCursor (Counted.ofCursor (MemoryCursor.ofRows fields rows failAt)) build).limit
      limiter
    let expected := windowResults build limiter fields rows failAt
    (s.drain bound).1 = expected.take bound ∧
      (expected.length < bound → (s.drain bound).2.done = true) ∧
      ∀ l ∈ limiter, ∀ take ∈ l.take,
        (s.drain bound).2.cursor.advances ≤ l.skip.toNat + take.toNat := by
  intro s expected
  have hmax : rows.length ≤ maxCount.toNat := Nat.le_of_lt_succ hrows
  have hgives : Gives s expected := by
    have hstart : Gives (behind (MemoryCursor.ofRows fields rows failAt) build limiter 0)
        (resultsFrom (MemoryCursor.ofRows fields rows failAt) build limiter (UInt64.ofNat 0)
          (readable rows failAt)) :=
      gives_behind rfl hmax List.drop_zero (Nat.zero_le _)
    have hwindow : keptFrom limiter (UInt64.ofNat 0) (readable rows failAt) = _ :=
      keptFrom_zero limiter (Nat.le_trans (length_readable_le rows failAt).1 hmax)
    rw [resultsFrom] at hstart
    change Gives s (upToFault (List.map _ (keptFrom _ _ (readable rows failAt)) ++ _)) at hstart
    rw [hwindow] at hstart
    exact hstart
  rcases hgives.drain_eq bound with ⟨hresults, hdone⟩
  refine ⟨hresults, hdone, ?_⟩
  rintro l rfl take htake
  exact advances_drain_le _ build htake bound

/-- Four rows with a number each, the last of which cannot be read. -/
def fourNumbers : MemoryCursor :=
  MemoryCursor.ofRows [⟨"Id", "int", .int32⟩] [[.int32 1], [.int32 2], [.int32 3], [.int32 4]]
    (some 3)

/-- Without the first row, and of three rows at most, they give two numbers and the fault. -/
theorem drain_fourNumbers :
    fourNumbers.rows.length < UInt64.size ∧
      let s := (ofCursor (Counted.ofCursor fourNumbers) fun r => r.value 0).limit (some ⟨1, some 3⟩)
      (s.drain 9).1 = [.ok (.int32 2), .ok (.int32 3), .error (Fault.of (.row (.unreadable 3)))] ∧
        (s.drain 9).2.done = true ∧ (s.drain 9).2.cursor.advances ≤ 4 := by
  have hrows : fourNumbers.rows.length < UInt64.size := by decide
  have hwindow := drain_memory (fun r => r.value 0) (some ⟨1, some 3⟩) fourNumbers.fields
    fourNumbers.failAt hrows 9
  refine ⟨hrows, hwindow.1.trans rfl, hwindow.2.1 (by decide), hwindow.2.2 _ rfl _ rfl⟩

end Sequence

end RowQuery
