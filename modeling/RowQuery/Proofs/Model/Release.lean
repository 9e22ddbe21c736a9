import RowQuery.Model.Materializer

/-!
# Release of the cursor

A sequence may end in many ways: at the end of the rows or of its window, with a fault of the cursor
or of the factory, because its owner closes it, or because it is dropped, which closes it too.  This
module lists what a sequence asks for during its whole life, by following the real
{lit}`Sequence.next`, and shows that the cursor is closed once, at last.

Main results:

- Definition {lit}`Sequence.requests`: what {lit}`Sequence.next` asks for, in order.
- Theorem {lit}`Sequence.counts_run`: a cursor that counts its calls counts these requests.
- Theorem {lit}`Sequence.use_cases`: what a single use of an open sequence may come to.
- Theorem {lit}`released_once`: whatever its owner does with it, a sequence closes its cursor once
  and as the last thing that it asks for, and gives no more results behind its end.
-/

namespace RowQuery

namespace Sequence

/-! ## Requests -/

/-- What a sequence asks for: that its cursor goes to the next row, that a result is made of the
row, and that the cursor is closed. -/
inductive Request where
  | advance
  | build
  | close
  deriving DecidableEq, Repr

/-- The cursor is closed once, and nothing is asked for behind that. -/
def ReleasedOnce (requests : List Request) : Prop :=
  ∃ front, Request.close ∉ front ∧ requests = front ++ [Request.close]

variable {σ α : Type} [Cursor σ]

/-- What {lit}`close` asks for. -/
def closeRequests (s : Sequence σ α) : List Request :=
  if s.done then [] else [.close]

/-- What {lit}`next` asks for, on the same way from row to row. -/
def requests (s : Sequence σ α) : List Request :=
  if s.done then []
  else if s.isPastWindow then s.closeRequests
  else
    match Cursor.advance s.cursor with
    | (.error _, cursor) => .advance :: { s with cursor }.closeRequests
    | (.ok false, cursor) => .advance :: { s with cursor }.closeRequests
    | (.ok true, cursor) =>
      if s.isInWindow then
        match s.build (Cursor.row cursor) with
        | .ok _ => [.advance, .build]
        | .error _ => .advance :: .build :: (s.moved cursor).closeRequests
      else
        .advance :: (s.moved cursor).requests
  termination_by s.rowsToPass
  decreasing_by exact rowsToPass_moved cursor ‹_› ‹_›

/-- The ways that {lit}`next` may take: what it asks for, its result and the sequence behind it. -/
inductive Way : Sequence σ α → List Request → Option (Except Fault α) → Sequence σ α → Prop
  /-- The sequence was at its end before. -/
  | ended {s : Sequence σ α} (hdone : s.done = true) : Way s [] none s
  /-- The window lies behind. -/
  | pastWindow {s : Sequence σ α} (hopen : s.done = false) (hpast : s.isPastWindow = true) :
      Way s [.close] none s.close
  /-- The cursor reports a fault. -/
  | fault {s : Sequence σ α} {f : Fault} {cursor : σ} (hopen : s.done = false)
      (hpast : s.isPastWindow = false) (hadvance : Cursor.advance s.cursor = (.error f, cursor)) :
      Way s [.advance, .close] (some (.error f)) { s with cursor }.close
  /-- The cursor has no more rows. -/
  | exhausted {s : Sequence σ α} {cursor : σ} (hopen : s.done = false)
      (hpast : s.isPastWindow = false) (hadvance : Cursor.advance s.cursor = (.ok false, cursor)) :
      Way s [.advance, .close] none { s with cursor }.close
  /-- A result is made of a row. -/
  | built {s : Sequence σ α} {cursor : σ} {a : α} (hopen : s.done = false)
      (hpast : s.isPastWindow = false) (hadvance : Cursor.advance s.cursor = (.ok true, cursor))
      (hin : s.isInWindow = true) (hbuild : s.build (Cursor.row cursor) = .ok a) :
      Way s [.advance, .build] (some (.ok a)) (s.moved cursor)
  /-- No result can be made of a row. -/
  | refused {s : Sequence σ α} {cursor : σ} {f : Fault} (hopen : s.done = false)
      (hpast : s.isPastWindow = false) (hadvance : Cursor.advance s.cursor = (.ok true, cursor))
      (hin : s.isInWindow = true) (hbuild : s.build (Cursor.row cursor) = .error f) :
      Way s [.advance, .build, .close] (some (.error f)) (s.moved cursor).close
  /-- A row in front of the window is passed over. -/
  | passed {s s' : Sequence σ α} {cursor : σ} {requests : List Request}
      {result : Option (Except Fault α)} (hopen : s.done = false)
      (hpast : s.isPastWindow = false) (hadvance : Cursor.advance s.cursor = (.ok true, cursor))
      (hin : s.isInWindow = false) (hway : Way (s.moved cursor) requests result s') :
      Way s (.advance :: requests) result s'

omit [Cursor σ] in
/-- An open sequence closes its cursor. -/
theorem closeRequests_of_open {s : Sequence σ α} (hopen : ¬s.done = true) :
    s.closeRequests = [.close] :=
  if_neg hopen

/-- Every call takes one of these ways. -/
theorem way_next (s : Sequence σ α) : Way s s.requests s.next.1 s.next.2 := by
  induction s using next.induct with
  | case1 s hdone =>
    rw [next, requests, if_pos hdone, if_pos hdone]
    exact .ended hdone
  | case2 s hopen hpast =>
    rw [next, requests, if_neg hopen, if_neg hopen, if_pos hpast, if_pos hpast,
      closeRequests_of_open hopen]
    exact .pastWindow (Bool.eq_false_iff.2 hopen) hpast
  | case3 s hopen hpast f cursor hadvance =>
    rw [next, requests]
    simp only [if_neg hopen, if_neg hpast, hadvance]
    rw [closeRequests_of_open (s := { s with cursor }) hopen]
    exact .fault (Bool.eq_false_iff.2 hopen) (Bool.eq_false_iff.2 hpast) hadvance
  | case4 s hopen hpast cursor hadvance =>
    rw [next, requests]
    simp only [if_neg hopen, if_neg hpast, hadvance]
    rw [closeRequests_of_open (s := { s with cursor }) hopen]
    exact .exhausted (Bool.eq_false_iff.2 hopen) (Bool.eq_false_iff.2 hpast) hadvance
  | case5 s hopen hpast cursor hadvance hin a hbuild =>
    rw [next, requests]
    simp only [if_neg hopen, if_neg hpast, hadvance, if_pos hin, hbuild]
    exact .built (Bool.eq_false_iff.2 hopen) (Bool.eq_false_iff.2 hpast) hadvance hin hbuild
  | case6 s hopen hpast cursor hadvance hin f hbuild =>
    rw [next, requests]
    simp only [if_neg hopen, if_neg hpast, hadvance, if_pos hin, hbuild]
    rw [closeRequests_of_open (s := s.moved cursor) hopen]
    exact .refused (Bool.eq_false_iff.2 hopen) (Bool.eq_false_iff.2 hpast) hadvance hin hbuild
  | case7 s hopen hpast cursor hadvance hin ih =>
    rw [next, requests]
    simp only [if_neg hopen, if_neg hpast, hadvance, if_neg hin]
    exact .passed (Bool.eq_false_iff.2 hopen) (Bool.eq_false_iff.2 hpast) hadvance
      (Bool.eq_false_iff.2 hin) ih

/-! ## Uses -/

/-- What the owner of a sequence does with it. -/
inductive Use where
  | next
  | close
  deriving DecidableEq, Repr

/-- What the owner gets for it. -/
inductive Reply (α : Type) where
  | result (r : Option (Except Fault α))
  | closed

namespace Reply

/-- The sequence is at its end: it gave no result or a fault, or it was closed. -/
def Ends : Reply α → Prop
  | result (some (.ok _)) => False
  | _ => True

/-- The owner gets no result. -/
def Silent : Reply α → Prop
  | result (some _) => False
  | _ => True

end Reply

/-- A use of a sequence: the reply, and the sequence behind it. -/
def use (s : Sequence σ α) : Use → Reply α × Sequence σ α
  | .next => (.result s.next.1, s.next.2)
  | .close => (.closed, s.close)

/-- What a use asks for. -/
def useRequests (s : Sequence σ α) : Use → List Request
  | .next => s.requests
  | .close => s.closeRequests

/-- The replies to uses that are made one after the other, and the sequence behind them. -/
def run (s : Sequence σ α) : List Use → List (Reply α) × Sequence σ α
  | [] => ([], s)
  | u :: rest => ((s.use u).1 :: ((s.use u).2.run rest).1, ((s.use u).2.run rest).2)

/-- What uses that are made one after the other ask for. -/
def runRequests (s : Sequence σ α) : List Use → List Request
  | [] => []
  | u :: rest => s.useRequests u ++ (s.use u).2.runRequests rest

/-! ## Ends -/

/-- A sequence that was closed is at its end. -/
theorem done_close (s : Sequence σ α) : s.close.done = true := by
  unfold close
  split
  · assumption
  · rfl

/-- Behind its end a sequence asks for nothing and gives nothing. -/
theorem use_of_done {s : Sequence σ α} (hdone : s.done = true) (u : Use) :
    (s.use u).1.Silent ∧ (s.use u).2 = s ∧ s.useRequests u = [] := by
  cases u with
  | next =>
    rw [use, useRequests, next, requests, if_pos hdone, if_pos hdone]
    exact ⟨trivial, rfl, rfl⟩
  | close =>
    rw [use, useRequests, close, closeRequests, if_pos hdone, if_pos hdone]
    exact ⟨trivial, rfl, rfl⟩

/-- A call of an open sequence gives a result and leaves the cursor open, or it closes the cursor at
last and gives none. -/
theorem Way.ends_or_not {s s' : Sequence σ α} {requests : List Request}
    {result : Option (Except Fault α)} (hway : Way s requests result s') (hopen : s.done = false) :
    (s'.done = false ∧ ¬(Reply.result result).Ends ∧ .close ∉ requests) ∨
      (s'.done = true ∧ ReleasedOnce requests) := by
  induction hway with
  | ended hdone => simp [hdone] at hopen
  | pastWindow => exact .inr ⟨done_close _, [], by simp⟩
  | fault => exact .inr ⟨done_close _, [.advance], by simp⟩
  | exhausted => exact .inr ⟨done_close _, [.advance], by simp⟩
  | built => exact .inl ⟨hopen, by simp [Reply.Ends], by simp⟩
  | refused => exact .inr ⟨done_close _, [.advance, .build], by simp⟩
  | passed _ _ _ _ _ ih =>
    rcases ih hopen with ⟨hopen', hreply, hrequests⟩ | ⟨hdone, front, hfront, rfl⟩
    · exact .inl ⟨hopen', hreply, by simp [hrequests]⟩
    · exact .inr ⟨hdone, .advance :: front, by simp [hfront]⟩

/-- A use of an open sequence leaves the cursor open, or it closes the cursor at last. -/
theorem use_cases {s : Sequence σ α} (hopen : s.done = false) (u : Use) :
    ((s.use u).2.done = false ∧ ¬(s.use u).1.Ends ∧ .close ∉ s.useRequests u) ∨
      ((s.use u).2.done = true ∧ ReleasedOnce (s.useRequests u)) := by
  cases u with
  | next => exact (way_next s).ends_or_not hopen
  | close =>
    refine .inr ⟨done_close s, [], by simp, ?_⟩
    simp [useRequests, closeRequests, hopen]

/-! ## Whole lives -/

/-- Behind its end a sequence stays as it is. -/
theorem run_of_done {s : Sequence σ α} (hdone : s.done = true) (uses : List Use) :
    (∀ reply ∈ (s.run uses).1, reply.Silent) ∧ s.runRequests uses = [] := by
  induction uses with
  | nil => simp [run, runRequests]
  | cons u rest ih =>
    rcases use_of_done hdone u with ⟨hsilent, hsame, hnone⟩
    rw [run, runRequests, hsame, hnone]
    refine ⟨?_, ih.2⟩
    intro reply hreply
    rcases List.mem_cons.1 hreply with rfl | hreply
    · exact hsilent
    · exact ih.1 reply hreply

/-- An open sequence that is closed at last closes its cursor once. -/
theorem releasedOnce_run {s : Sequence σ α} (hopen : s.done = false) (uses : List Use) :
    ReleasedOnce (s.runRequests (uses ++ [.close])) := by
  induction uses generalizing s with
  | nil =>
    refine ⟨[], by simp, ?_⟩
    simp [runRequests, useRequests, closeRequests, hopen]
  | cons u rest ih =>
    rw [List.cons_append, runRequests]
    rcases use_cases hopen u with ⟨hopen', _, hnone⟩ | ⟨hdone, honce⟩
    · rcases ih hopen' with ⟨front, hfront, hrequests⟩
      refine ⟨s.useRequests u ++ front, by simp [hnone, hfront], ?_⟩
      rw [hrequests, List.append_assoc]
    · rwa [(run_of_done hdone _).2, List.append_nil]

/-- Behind a reply that ends a sequence there are no results. -/
theorem pairwise_run (s : Sequence σ α) (uses : List Use) :
    (s.run uses).1.Pairwise fun earlier later => earlier.Ends → later.Silent := by
  induction uses generalizing s with
  | nil => exact List.Pairwise.nil
  | cons u rest ih =>
    rw [run]
    refine List.Pairwise.cons ?_ (ih _)
    intro later hlater hends
    have hdone : (s.use u).2.done = true := by
      cases hopen : s.done with
      | true => rw [(use_of_done hopen u).2.1, hopen]
      | false =>
        rcases use_cases hopen u with ⟨_, hgoesOn, _⟩ | ⟨hdone, _⟩
        · exact absurd hends hgoesOn
        · exact hdone
    exact (run_of_done hdone rest).1 later hlater

/-! ## Counted requests -/

/-- How often the cursor was advanced and closed. -/
def counts (s : Sequence (Counted σ) α) : Nat × Nat := (s.cursor.advances, s.cursor.closes)

/-- The counts behind some requests. -/
def countsBehind (counts : Nat × Nat) (requests : List Request) : Nat × Nat :=
  (counts.1 + requests.count .advance, counts.2 + requests.count .close)

theorem countsBehind_append (counts : Nat × Nat) (front behind : List Request) :
    countsBehind counts (front ++ behind) = countsBehind (countsBehind counts front) behind := by
  simp [countsBehind, Nat.add_assoc]

/-- The request to close is counted. -/
theorem counts_close (s : Sequence (Counted σ) α) :
    s.close.counts = countsBehind s.counts s.closeRequests := by
  unfold close closeRequests
  split <;> rfl

/-- Every request of a call is counted. -/
theorem Way.counts_eq {s s' : Sequence (Counted σ) α} {requests : List Request}
    {result : Option (Except Fault α)} (hway : Way s requests result s') :
    s'.counts = countsBehind s.counts requests := by
  have hadvanced {c c' : Counted σ} {answer : Except Fault Bool}
      (h : Cursor.advance c = (answer, c')) :
      c'.advances = c.advances + 1 ∧ c'.closes = c.closes := by
    cases h
    exact ⟨rfl, rfl⟩
  induction hway with
  | ended => rfl
  | pastWindow hopen => rw [counts_close, closeRequests, hopen]; rfl
  | fault hopen _ hadvance =>
    rcases hadvanced hadvance with ⟨hadvances, hcloses⟩
    rw [counts_close, closeRequests]
    simp [counts, countsBehind, hopen, hadvances, hcloses]
  | exhausted hopen _ hadvance =>
    rcases hadvanced hadvance with ⟨hadvances, hcloses⟩
    rw [counts_close, closeRequests]
    simp [counts, countsBehind, hopen, hadvances, hcloses]
  | built _ _ hadvance =>
    rcases hadvanced hadvance with ⟨hadvances, hcloses⟩
    simp [counts, countsBehind, moved, hadvances, hcloses]
  | refused hopen _ hadvance =>
    rcases hadvanced hadvance with ⟨hadvances, hcloses⟩
    rw [counts_close, closeRequests]
    simp [counts, countsBehind, moved, hopen, hadvances, hcloses]
  | passed _ _ hadvance _ _ ih =>
    rcases hadvanced hadvance with ⟨hadvances, hcloses⟩
    rw [ih]
    simp [counts, countsBehind, moved, hadvances, hcloses]
    omega

/-- A cursor that counts its calls counts all requests to it. -/
theorem counts_run (s : Sequence (Counted σ) α) (uses : List Use) :
    (s.run uses).2.counts = countsBehind s.counts (s.runRequests uses) := by
  induction uses generalizing s with
  | nil => rfl
  | cons u rest ih =>
    have huse : (s.use u).2.counts = countsBehind s.counts (s.useRequests u) := by
      cases u with
      | next => exact (way_next s).counts_eq
      | close => exact counts_close s
    rw [run, runRequests, countsBehind_append, ← huse]
    exact ih _

/-! ## From the start to the end -/

/-- What the owner of a sequence that it drops at last can rely on. -/
structure Released (s : Sequence (Counted σ) α) (uses : List Use) : Prop where
  /-- The cursor is closed once, and neither the cursor nor the factory is asked behind that. -/
  once : ReleasedOnce (s.runRequests (uses ++ [.close]))
  /-- The cursor itself counts these requests, one of them to close it. -/
  counted : (s.run (uses ++ [.close])).2.counts =
    ((s.runRequests (uses ++ [.close])).count .advance, 1)
  /-- Behind the end of the sequence there are no results. -/
  silent : (s.run (uses ++ [.close])).1.Pairwise fun earlier later => earlier.Ends → later.Silent

/-- A sequence over a cursor that was not used before. -/
theorem released_ofCursor (cursor : σ) (build : Row → Except Fault α)
    (limiter : Option Sql.RowLimiter) (uses : List Use) :
    ((ofCursor (Counted.ofCursor cursor) build).limit limiter).Released uses := by
  have honce := releasedOnce_run
    (s := (ofCursor (Counted.ofCursor cursor) build).limit limiter) rfl uses
  refine ⟨honce, ?_, pairwise_run _ _⟩
  rcases honce with ⟨front, hfront, hrequests⟩
  have hone : (front ++ [Request.close]).count .close = 1 := by
    simp [List.count_eq_zero.2 hfront]
  rw [counts_run, hrequests, countsBehind, hone]
  simp [counts, limit, ofCursor, Counted.ofCursor]

end Sequence

/-- Whatever the cursor, the factory, the window and the uses: a sequence closes its cursor once, at
last.  A materializer starts such a sequence with a cursor that nothing was asked of before, or it
finds no factory and only closes the cursor, once. -/
theorem released_once {σ α β : Type} [Cursor σ] (cursor : σ) :
    (∀ (build : Row → Except Fault β) (limiter : Option Sql.RowLimiter)
        (uses : List Sequence.Use),
      ((Sequence.ofCursor (Counted.ofCursor cursor) build).limit limiter).Released uses) ∧
    ∀ (m : Materializer α) (t : Target α),
      match (m.materialize t (Counted.ofCursor cursor)).1 with
      | .ok s => ∃ build, s = Sequence.ofCursor (Counted.ofCursor cursor) build
      | .error (_, closed) => closed.advances = 0 ∧ closed.closes = 1 := by
  refine ⟨Sequence.released_ofCursor cursor, ?_⟩
  intro m t
  unfold Materializer.materialize
  rcases m.factory t (Cursor.row (Counted.ofCursor cursor)).fields with ⟨answer, m'⟩
  cases answer with
  | ok f => exact ⟨f.build, rfl⟩
  | error f => exact ⟨rfl, rfl⟩

end RowQuery
