import RowQuery.Model.Materializer
import RowQuery.Query.Draft

/-!
# Sessions

A session holds a materializer and named sequences over result sets in memory.  It remembers
what was done to the cursor that was last opened under each name, also when no sequence came
of it or the sequence is gone.  A sequence stays under its name until it is dropped or another
one takes its place: to open one in vain does not end it.

Main results:

- {lit}`Session.start` opens a sequence, {lit}`Session.next` and {lit}`Session.rest` ask it for
  results, {lit}`Session.close` and {lit}`Session.drop` end it.
- {lit}`Session.tally` tells what was done to a cursor.
-/

namespace RowQuery

/-- A sequence over a result set in memory whose calls are counted. -/
abbrev Listing (α : Type) := Sequence (Counted MemoryCursor) (Item α)

/-- A materializer, the open sequences by name, and the cursors that were last opened under
their names and have no sequence. -/
structure Session (α : Type) where
  materializer : Materializer α
  listings : List (String × Listing α)
  detached : List (String × Counted MemoryCursor)

namespace Session

variable {α : Type}

/-- A session with nothing open. -/
def empty (fingerprint : String → UInt64) : Session α :=
  ⟨Materializer.empty fingerprint, [], []⟩

/-- Remembers the cursor that was last opened under a name and has no sequence. -/
def detach (s : Session α) (name : String) (cursor : Counted MemoryCursor) : Session α :=
  { s with detached := NamedList.put name cursor s.detached }

/-- Puts a sequence under a name; its cursor is the last that was opened there. -/
def attach (s : Session α) (name : String) (listing : Listing α) : Session α :=
  { s with
    listings := NamedList.put name listing s.listings
    detached := NamedList.erase name s.detached }

/-- Replaces a sequence by what has become of it. -/
def update (s : Session α) (name : String) (listing : Listing α) : Session α :=
  { s with listings := NamedList.put name listing s.listings }

/-- The cursor that was last opened under a name. -/
def cursor? (s : Session α) (name : String) : Option (Counted MemoryCursor) :=
  match s.detached.lookup name with
  | some cursor => some cursor
  | none => (s.listings.lookup name).map Sequence.cursor

/-- Ends a sequence and takes it out; says whether there was one. -/
def drop (s : Session α) (name : String) : Bool × Session α :=
  match s.listings.lookup name with
  | some listing =>
    let last := (s.detached.lookup name).getD listing.close.cursor
    (true, { s with listings := NamedList.erase name s.listings }.detach name last)
  | none => (false, s)

/-- Opens a sequence over a result set.  Its window comes from the statement of a query if one
is given, in place of the window that is named. -/
def start (s : Session α) (name : String) (t : Target α) (cursor : MemoryCursor)
    (window : Except Fault (Option Sql.RowLimiter)) : Except Fault Unit × Session α :=
  let cursor := Counted.ofCursor cursor
  match window with
  | .error f => (.error f, s.detach name cursor)
  | .ok limiter =>
    match s.materializer.materialize t cursor with
    | (.ok listing, materializer) =>
      (.ok (), { s with materializer }.attach name (listing.limit limiter))
    | (.error (f, closed), materializer) => (.error f, { s with materializer }.detach name closed)

/-- The window of a sequence over the rows of a query's statement. -/
def windowOf (q : Query) (dialect : Sql.Dialect) : Except Fault (Option Sql.RowLimiter) :=
  (q.statement dialect).map Sql.Statement.limiter

/-- The next result of a sequence: none if there is no such sequence, and no result at its
end. -/
def next (s : Session α) (name : String) : Option (Option (Except Fault (Item α))) × Session α :=
  match s.listings.lookup name with
  | some listing =>
    let (result, listing) := listing.next
    (some result, s.update name listing)
  | none => (none, s)

/-- The results of a sequence up to its end.  Every row and the last fault give one result at
most. -/
def rest (s : Session α) (name : String) : List (Except Fault (Item α)) × Session α :=
  match s.listings.lookup name with
  | some listing =>
    let (results, listing) := listing.drain (listing.cursor.inner.rows.length + 2)
    (results, s.update name listing)
  | none => ([], s)

/-- Closes a sequence, which stays under its name. -/
def close (s : Session α) (name : String) : Session α :=
  match s.listings.lookup name with
  | some listing => s.update name listing.close
  | none => s

/-- How often a cursor was advanced, closed, and released its rows. -/
def tally (s : Session α) (name : String) : Nat × Nat × Nat :=
  match s.cursor? name with
  | some c => (c.advances, c.closes, c.inner.releases)
  | none => (0, 0, 0)

/-- A cursor after it was advanced so many times, whatever came of it. -/
def advanced (count : Nat) (c : MemoryCursor) : MemoryCursor :=
  count.repeat (fun c => c.advance.2) c

/-- The result of the row where a cursor stands after it was advanced so many times. -/
def read (s : Session α) (t : Target α) (c : MemoryCursor) (count : Nat) :
    Except Fault (Item α) × Session α :=
  let (result, materializer) := s.materializer.read t (advanced count c).row
  (result, { s with materializer })

end Session

end RowQuery
