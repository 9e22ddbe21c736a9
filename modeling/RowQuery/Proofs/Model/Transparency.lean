import RowQuery.Model.Record
import RowQuery.Proofs.Model.SeenFields

/-!
# Transparency of the cache of factories

A materializer answers from its cache when it meets a shape again.  A shape holds the names of the
fields and the database's names of their types, while a factory is compiled from the types of the
values that are read.  So the cache goes unnoticed where the database's names tell these types
apart, and only there.

Main results:

- Definition {lit}`Materializer.Sound`: what is kept was compiled for rows that may be met.
- Theorems {lit}`Catalogue.perform_eq` and {lit}`Catalogue.run_eq`: one call, and a list of them,
  are answered as by a new materializer.
- Theorem {lit}`transparent_iff`: the exact condition under which the cache goes unnoticed.
-/

namespace RowQuery

open Outcome

/-! ## Calls -/

/-- The types of results by name. -/
structure Catalogue (α : Type) where
  model : String → Model α
  scalar : String → Scalar
  typeName_model : ∀ name, (model name).typeName = name
  typeName_scalar : ∀ name, (scalar name).typeName = name

/-- The type of results of a kind with a name. -/
def Catalogue.target {α : Type} (c : Catalogue α) (kind : ResultKind) (typeName : String) :
    Target α :=
  match kind with
  | .model => .model (c.model typeName)
  | .scalar => .scalar (c.scalar typeName)

/-- A call of a materializer: for the results of a cursor, or for the instance of a row. -/
inductive Call (σ : Type) where
  | materialize (kind : ResultKind) (typeName : String) (cursor : σ)
  | read (typeName : String) (r : Row)

/-- What a call is answered. -/
inductive Answer (σ α : Type) where
  | sequence (answer : Except (Fault × σ) (Sequence σ (Item α)))
  | item (answer : Except Fault (Item α))

variable {α σ : Type} [Cursor σ]

/-- The fields of the rows that a call is about. -/
def Call.fields : Call σ → List Field
  | materialize _ _ cursor => (Cursor.row cursor).fields
  | read _ r => r.fields

namespace Catalogue

/-- The answer to a call, and the materializer behind it. -/
def perform (c : Catalogue α) (m : Materializer α) : Call σ → Answer σ α × Materializer α
  | .materialize kind typeName cursor =>
    let (answer, m') := m.materialize (c.target kind typeName) cursor
    (.sequence answer, m')
  | .read typeName r =>
    let (answer, m') := m.read (c.target .model typeName) r
    (.item answer, m')

/-- The answers to calls that are made one after the other. -/
def run (c : Catalogue α) (m : Materializer α) : List (Call σ) → List (Answer σ α)
  | [] => []
  | call :: rest =>
    let (answer, m') := c.perform m call
    answer :: c.run m' rest

end Catalogue

/-! ## Fields that are told apart -/

/-- Rows with such fields are always answered as by a new materializer, whatever types, fingerprints
and calls there are. -/
def Transparent (known : List Field → Prop) : Prop :=
  ∀ (α σ : Type) [Cursor σ] (c : Catalogue α) (fingerprint : String → UInt64)
    (calls : List (Call σ)), (∀ call ∈ calls, known call.fields) →
    c.run (Materializer.empty fingerprint) calls =
      calls.map fun call => (c.perform (Materializer.empty fingerprint) call).1

/-- Fields with the same names whose types have the same names in the database are handed over to
the same places. -/
def Consistent (known : List Field → Prop) : Prop :=
  ∀ a b, known a → known b →
    a.map (fun f => (f.name, f.nativeType)) = b.map (fun f => (f.name, f.nativeType)) →
    a.map (·.ty.direct?) = b.map (·.ty.direct?)

/-- Consistent fields of one shape look the same. -/
theorem Consistent.seen_eq {known : List Field → Prop} (h : Consistent known) {a b : List Field}
    (ha : known a) (hb : known b) {kind kind' : ResultKind} {typeName typeName' : String}
    (hshape : Shape.of kind typeName a = Shape.of kind' typeName' b) :
    a.map Field.seen = b.map Field.seen := by
  have hcolumns :
      a.map (fun f => (f.name, f.nativeType)) = b.map (fun f => (f.name, f.nativeType)) :=
    congrArg Shape.columns hshape
  have hdirect := h a b ha hb hcolumns
  have hnames : a.map Field.name = b.map Field.name := by
    have hfirst := congrArg (List.map Prod.fst) hcolumns
    rw [List.map_map, List.map_map] at hfirst
    exact hfirst
  have hzip (l : List Field) : l.map Field.seen = (l.map Field.name).zip (l.map (·.ty.direct?)) :=
    (List.zip_map' ..).symm
  rw [hzip, hzip, hnames, hdirect]

/-! ## Answers -/

/-- The results of a cursor from the way its rows are turned into results. -/
def sequenceOf (cursor : σ) (answer : Except Fault (Row → Except Fault (Item α))) :
    Except (Fault × σ) (Sequence σ (Item α)) :=
  match answer with
  | .ok build => .ok (Sequence.ofCursor cursor build)
  | .error f => .error (f, Cursor.close cursor)

namespace Materializer

/-- A sequence depends on what its factory makes of rows. -/
theorem materialize_eq (m : Materializer α) (t : Target α) (cursor : σ) :
    m.materialize t cursor =
      (sequenceOf cursor ((m.factory t (Cursor.row cursor).fields).1.map Factory.build),
        (m.factory t (Cursor.row cursor).fields).2) := by
  unfold materialize
  cases m.factory t (Cursor.row cursor).fields with
  | mk answer m' => cases answer <;> rfl

/-- The result of a row depends on what its factory makes of rows. -/
theorem read_eq (m : Materializer α) (t : Target α) (r : Row) :
    m.read t r =
      ((m.factory t r.fields).1.map Factory.build >>= fun build => build r,
        (m.factory t r.fields).2) := by
  unfold read
  cases m.factory t r.fields with
  | mk answer m' => cases answer <;> rfl

/-- A new materializer compiles. -/
theorem factory_empty (fingerprint : String → UInt64) (t : Target α) (fields : List Field) :
    ((empty fingerprint).factory t fields).1 = Factory.compile t fields := by
  simp only [factory, empty, Cache.getOrBuild, Cache.find?, Cache.empty]
  cases Factory.compile t fields <;> rfl

/-- Every factory that is kept was compiled for a type of the catalogue and for fields that may be
met, and is kept under their shape. -/
def Sound (c : Catalogue α) (known : List Field → Prop) (m : Materializer α) : Prop :=
  ∀ entry ∈ m.cache.entries, ∃ kind typeName fields, known fields ∧
    entry.2.1 = Shape.of kind typeName fields ∧
    Factory.compile (c.target kind typeName) fields = .ok entry.2.2

variable {c : Catalogue α} {known : List Field → Prop} {m : Materializer α}

/-- Nothing is kept at first. -/
theorem sound_empty (c : Catalogue α) (known : List Field → Prop) (fingerprint : String → UInt64) :
    Sound c known (empty fingerprint) := by
  intro entry hentry
  cases hentry

/-- The name of a type of the catalogue is its name there. -/
theorem typeName_target (c : Catalogue α) (kind : ResultKind) (typeName : String) :
    (c.target kind typeName).typeName = typeName := by
  cases kind with
  | model => exact c.typeName_model typeName
  | scalar => exact c.typeName_scalar typeName

/-- The kind of a type of the catalogue is its kind there. -/
theorem kind_target (c : Catalogue α) (kind : ResultKind) (typeName : String) :
    (c.target kind typeName).kind = kind := by
  cases kind <;> rfl

/-- What is kept under a key stands in the cache with the key. -/
theorem mem_of_find? {κ φ : Type} [DecidableEq κ] {cache : Cache κ φ} {key : κ} {found : φ}
    (h : cache.find? key = some found) :
    ∃ entry ∈ cache.entries, entry.2.1 = key ∧ entry.2.2 = found := by
  obtain ⟨entry, hentry, rfl⟩ := Option.map_eq_some_iff.1 h
  have hkey := List.find?_some hentry
  exact ⟨entry, List.mem_of_find?_eq_some hentry, (of_decide_eq_true hkey).2, rfl⟩

/-- A factory of the cache makes of rows what a new one makes of them, and the cache stays
sound. -/
theorem Sound.factory (hm : m.Sound c known) (hknown : Consistent known) (kind : ResultKind)
    (typeName : String) {fields : List Field} (hfields : known fields) :
    (m.factory (c.target kind typeName) fields).1.map Factory.build =
        (Factory.compile (c.target kind typeName) fields).map Factory.build ∧
      (m.factory (c.target kind typeName) fields).2.Sound c known := by
  unfold Materializer.factory Cache.getOrBuild
  rw [typeName_target, kind_target]
  cases hfind : m.cache.find? (Shape.of kind typeName fields) with
  | some found =>
    refine ⟨?_, hm⟩
    obtain ⟨entry, hentry, hkey, rfl⟩ := mem_of_find? hfind
    obtain ⟨kind', typeName', fields', hfields', hshape, hcompile⟩ := hm entry hentry
    rw [hshape] at hkey
    obtain rfl : kind' = kind := congrArg Shape.kind hkey
    obtain rfl : typeName' = typeName := congrArg Shape.typeName hkey
    have hseen := hknown.seen_eq hfields' hfields hkey
    rw [← Factory.compile_seen hseen, hcompile]
  | none =>
    cases hcompile : Factory.compile (c.target kind typeName) fields with
    | error f => exact ⟨rfl, hm⟩
    | ok built =>
      refine ⟨rfl, ?_⟩
      intro entry hentry
      rcases List.mem_cons.1 hentry with rfl | hentry
      · exact ⟨kind, typeName, fields, hfields, rfl, hcompile⟩
      · exact hm entry hentry

end Materializer

/-! ## Runs -/

namespace Catalogue

variable {c : Catalogue α} {known : List Field → Prop} {m : Materializer α}

/-- A call is answered as by a new materializer, and the cache stays sound. -/
theorem perform_eq (hknown : Consistent known) (hm : m.Sound c known)
    (fingerprint : String → UInt64) {call : Call σ} (hcall : known call.fields) :
    (c.perform m call).1 = (c.perform (Materializer.empty fingerprint) call).1 ∧
      (c.perform m call).2.Sound c known := by
  cases call with
  | materialize kind typeName cursor =>
    obtain ⟨hanswer, hsound⟩ := hm.factory hknown kind typeName hcall
    simp only [Call.fields] at hanswer hsound
    refine ⟨?_, ?_⟩
    · simp only [perform, Materializer.materialize_eq, Materializer.factory_empty, hanswer]
    · rw [perform, Materializer.materialize_eq]
      exact hsound
  | read typeName r =>
    obtain ⟨hanswer, hsound⟩ := hm.factory hknown .model typeName hcall
    simp only [Call.fields] at hanswer hsound
    refine ⟨?_, ?_⟩
    · simp only [perform, Materializer.read_eq, Materializer.factory_empty, hanswer]
    · rw [perform, Materializer.read_eq]
      exact hsound

/-- All calls are answered as by new materializers. -/
theorem run_eq (hknown : Consistent known) (hm : m.Sound c known) (fingerprint : String → UInt64)
    {calls : List (Call σ)} (hcalls : ∀ call ∈ calls, known call.fields) :
    c.run m calls = calls.map fun call => (c.perform (Materializer.empty fingerprint) call).1 := by
  induction calls generalizing m with
  | nil => rfl
  | cons call rest ih =>
    obtain ⟨hanswer, hsound⟩ :=
      perform_eq hknown hm fingerprint (hcalls call List.mem_cons_self)
    rw [List.map_cons, ← hanswer,
      ← ih hsound fun other h => hcalls other (List.mem_cons_of_mem call h)]
    rfl

end Catalogue

/-! ## Fields that are not told apart -/

/-- A value that is no value of a type and can be converted to it. -/
def Ty.outsider : Ty → Value
  | .text => .uuid Uuid.nil
  | .uuid => .bytes (List.replicate 16 0)
  | .dateTime => .date Date.epoch
  | .date => .dateTime (DateTime.atMidnight Date.epoch)
  | .bytes => .text ""
  | .bool => .int16 0
  | _ => .bool false

/-- An outsider of a type that takes values as they are is refused there and can be converted. -/
theorem Ty.outsider_spec {t ty : Ty} (h : t.direct? = some ty) :
    (∀ e, ty.core ≠ .enum e) ∧ ty.outsider.isNull = false ∧
      (∃ f, ty.outsider.take ty.core = .error f) ∧ (∃ v, ty.outsider.cast ty.core = .ok v) ∧
      (ty.core = .text → ∃ v, Converter.readUuidText ty.outsider = .ok v) ∧ ty.core = ty := by
  unfold direct? at h
  cases ht : t.core with
  | enum e => simp [ht] at h
  | unknown => simp [ht] at h
  | option inner =>
    have hoption := t.isOption_core
    rw [ht] at hoption
    cases hoption
  | text =>
    simp only [ht, Option.some.injEq] at h
    subst h
    exact ⟨by simp [core], rfl, ⟨_, rfl⟩, ⟨_, rfl⟩, fun _ => ⟨_, rfl⟩, rfl⟩
  | _ =>
    simp only [ht, Option.some.injEq] at h
    subst h
    exact ⟨by simp [core], rfl, ⟨_, rfl⟩, ⟨_, rfl⟩, by simp [core], rfl⟩

/-- An outsider of a type is refused where values of the type are handed over as they are. -/
theorem conversion_outsider_self {t ty : Ty} (h : t.direct? = some ty) :
    ∃ f, Reading.conversion (some ty) ty none ty.outsider = .error f := by
  obtain ⟨hplace, _, htake, _, _, hcore⟩ := Ty.outsider_spec h
  rw [Reading.conversion_none hplace, hcore]
  by_cases huuid : ty = .text ∧ some ty = some .uuid
  · obtain ⟨rfl, htext⟩ := huuid
    cases htext
  · rw [if_neg huuid, if_pos rfl]
    rwa [hcore] at htake

/-- An outsider of a type is converted from everywhere else. -/
theorem conversion_outsider_of_ne {t ty : Ty} (h : t.direct? = some ty) {seen : Option Ty}
    (hseen : seen ≠ some ty) : ∃ v, Reading.conversion seen ty none ty.outsider = .ok v := by
  obtain ⟨hplace, _, _, hcast, htext, hcore⟩ := Ty.outsider_spec h
  rw [Reading.conversion_none hplace]
  split
  · rename_i huuid
    exact htext huuid.1
  · rw [if_neg (by rwa [hcore])]
    exact hcast

/-- A catalogue whose instances have one property, and no content. -/
def probe (property : String) (ty : Ty) : Catalogue Unit where
  model typeName :=
    { typeName
      table := ⟨"", [⟨property, property, ty, none, none, .application⟩]⟩
      fresh := some ()
      constructors := []
      setters := [(property, fun a _ => .ok a)]
      injected := []
      finish := none }
  scalar typeName := ⟨typeName, ty⟩
  typeName_model _ := rfl
  typeName_scalar _ := rfl

/-- A row that holds one value and is null elsewhere. -/
def loneRow (fields : List Field) (place : Nat) (v : Value) : Row :=
  ⟨fields, fun ordinal => if ordinal = place then .ok v else .ok .null⟩

/-- What a reading makes of the row at its value. -/
theorem readThrough_loneRow (fields : List Field) {place : Nat} {v : Value} (h : v.isNull = false)
    (convert : Value → Except Fault Value) :
    Reading.readThrough place convert (loneRow fields place v) = (convert v).map some := by
  simp only [Reading.readThrough, loneRow, if_pos, bind, Except.bind, h]
  cases convert v <;> rfl

/-- What a reading makes of the row where it is null. -/
theorem readThrough_loneRow_of_ne (fields : List Field) {place ordinal : Nat} (v : Value)
    (h : ordinal ≠ place) (convert : Value → Except Fault Value) :
    Reading.readThrough ordinal convert (loneRow fields place v) = .ok none := by
  simp only [Reading.readThrough, loneRow, if_neg h, bind, Except.bind]
  rfl

/-- A field of the probe is visited if it has the name of the property. -/
theorem visit_probe (property : String) (ty : Ty) (typeName : String) (r : Row)
    (seen : String × Option Ty) (ordinal : Nat) :
    ModelFactory.visit ((probe property ty).model typeName) r () seen ordinal =
      if Text.sameName property seen.1 then
        (ModelFactory.naming typeName property
          (Reading.readThrough ordinal (Reading.conversion seen.2 ty none) r)).map fun _ => ()
      else .ok () := by
  let m := (probe property ty).model typeName
  have hset : m.setter? property = some fun a _ => .ok a := by
    simp [m, probe, Model.setter?, Model.find?]
  change ModelFactory.visit m r () seen ordinal = _
  by_cases hname : Text.sameName property seen.1 = true
  · have hfind : m.table.ofField? seen.1 =
        some ⟨property, property, ty, none, none, .application⟩ := by
      simp [m, probe, Table.ofField?, Table.byName?, Table.byProperty?, hname]
    have hinjected : (m.injected? property).isSome = false := rfl
    rw [if_pos hname, ModelFactory.visit, hfind]
    simp only [hset, hinjected, Bool.false_eq_true, if_false]
    cases Reading.readThrough ordinal (Reading.conversion seen.2 ty none) r with
    | error f => rfl
    | ok read => cases read <;> rfl
  · have hfind : m.table.ofField? seen.1 = none := by
      simp [m, probe, Table.ofField?, Table.byName?, Table.byProperty?, hname]
    rw [if_neg hname, ModelFactory.visit, hfind]

/-- The instances of the probe are made by visiting the fields. -/
theorem compile_probe (property : String) (ty : Ty) (typeName : String) (fields : List Field) :
    ∃ f, Factory.compile ((probe property ty).target .model typeName) fields = .ok f ∧
      ∀ r, f.build r = ((fields.map Field.seen).zipIdx.foldlM
        (fun a p => ModelFactory.visit ((probe property ty).model typeName) r a p.1 p.2) ()).map
          .instance := by
  let m := (probe property ty).model typeName
  refine ⟨.model ⟨typeName, .populate () (ModelFactory.fieldSteps m fields ++ []), none⟩, rfl,
    fun r => ?_⟩
  have hsteps := ModelFactory.foldlM_fieldSteps m r fields ()
  rw [← hsteps, List.append_nil]
  change ((ModelFactory.fieldSteps m fields).foldlM (ModelFactory.setProperty m.typeName r) () >>=
    pure).map Item.instance = _
  rw [bind_pure]

/-- A second list of fields of the same shape is answered with the factory of the first. -/
theorem Materializer.factory_again {t : Target α} {a b : List Field} {f : Factory α}
    (hcompile : Factory.compile t a = .ok f)
    (hshape : Shape.of t.kind t.typeName b = Shape.of t.kind t.typeName a)
    (fingerprint : String → UInt64) :
    (((empty fingerprint).factory t a).2.factory t b).1 = .ok f := by
  simp [factory, empty, Cache.getOrBuild, Cache.find?, Cache.empty, hcompile, hshape]

/-- If the cache goes unnoticed, fields of the same shape are handed over to the same places: a
place of a type would refuse an outsider or not, depending on the list that came first. -/
theorem Transparent.direct_eq {known : List Field → Prop} (h : Transparent known)
    {a b : List Field} (ha : known a) (hb : known b)
    (hcolumns : a.map (fun f => (f.name, f.nativeType)) = b.map (fun f => (f.name, f.nativeType)))
    {i : Nat} {f g : Field} (hf : a[i]? = some f) (hg : b[i]? = some g) {ty : Ty}
    (hty : f.ty.direct? = some ty) : g.ty.direct? = some ty := by
  apply Classical.byContradiction
  intro hne
  have hnull := (Ty.outsider_spec hty).2.1
  obtain ⟨first, hfirst, hbuild⟩ := compile_probe f.name ty "" a
  obtain ⟨second, hsecond, hbuild'⟩ := compile_probe f.name ty "" b
  let r : Row := loneRow b i ty.outsider
  -- the factory of the first list refuses the value
  have hrefused : ∃ e, first.build r = .error e := by
    have hmem : (f.seen, i) ∈ (a.map Field.seen).zipIdx := by
      rw [List.mem_zipIdx_iff_getElem?, List.getElem?_map, hf]
      rfl
    obtain ⟨e, he⟩ := conversion_outsider_self hty
    have hvisit : ∀ u : Unit, ∃ e',
        ModelFactory.visit ((probe f.name ty).model "") r u f.seen i = .error e' := by
      intro u
      have hname : Text.sameName f.name f.seen.1 = true := Text.sameName_refl f.name
      rw [visit_probe, if_pos hname, readThrough_loneRow b hnull]
      simp only [Field.seen, hty, he]
      exact ⟨_, rfl⟩
    obtain ⟨e', he'⟩ : ∃ e', (a.map Field.seen).zipIdx.foldlM (fun u p =>
        ModelFactory.visit ((probe f.name ty).model "") r u p.1 p.2) () = .error e' :=
      foldlM_error hmem hvisit ()
    rw [hbuild, he']
    exact ⟨e', rfl⟩
  -- the factory of the second list converts it
  have hconverted : ∃ item, second.build r = .ok item := by
    have hvisit : ∀ p ∈ (b.map Field.seen).zipIdx, ∀ u : Unit, ∃ u',
        ModelFactory.visit ((probe f.name ty).model "") r u p.1 p.2 = .ok u' := by
      rintro ⟨seen, ordinal⟩ hmem u
      rw [visit_probe]
      split
      · by_cases hordinal : ordinal = i
        · rw [List.mem_zipIdx_iff_getElem?, List.getElem?_map, hordinal, hg] at hmem
          cases hmem
          obtain ⟨v, hv⟩ := conversion_outsider_of_ne hty hne
          rw [hordinal, readThrough_loneRow b hnull]
          simp only [hv]
          exact ⟨_, rfl⟩
        · rw [readThrough_loneRow_of_ne b ty.outsider hordinal]
          exact ⟨_, rfl⟩
      · exact ⟨(), rfl⟩
    obtain ⟨u', hu'⟩ := foldlM_ok hvisit ()
    rw [hbuild', hu']
    exact ⟨_, rfl⟩
  have hrun := h Unit MemoryCursor (probe f.name ty) (fun _ => 0)
    [.read "" (loneRow a i .null), .read "" r] (by simp [Call.fields, r, loneRow, ha, hb])
  have hshape : Shape.of .model "" b = Shape.of .model "" a :=
    congrArg (Shape.mk .model "") hcolumns.symm
  have hagain := Materializer.factory_again hfirst hshape fun _ => 0
  simp only [Catalogue.run, Catalogue.perform, Materializer.read_eq] at hrun
  have hitem := Answer.item.inj (List.cons.inj (List.cons.inj hrun).2).1
  change (Except.map Factory.build _ >>= fun build => build r) =
    (Except.map Factory.build _ >>= fun build => build r) at hitem
  rw [Materializer.factory_empty] at hitem
  obtain ⟨e, he⟩ := hrefused
  obtain ⟨item, hok⟩ := hconverted
  have hsame : first.build r = second.build r := by
    have hleft := congrArg (fun answer => Except.map Factory.build answer >>= fun build => build r)
      hagain
    have hright := congrArg (fun answer => Except.map Factory.build answer >>= fun build => build r)
      hsecond
    exact hleft.symm.trans (hitem.trans hright)
  rw [he, hok] at hsame
  cases hsame

/-- The cache goes unnoticed exactly if fields of the same shape are handed over to the same
places. -/
theorem transparent_iff (known : List Field → Prop) : Transparent known ↔ Consistent known := by
  constructor
  · intro h a b ha hb hcolumns
    have hlength : a.length = b.length := by
      have hboth := congrArg List.length hcolumns
      rwa [List.length_map, List.length_map] at hboth
    apply List.ext_getElem
    · rw [List.length_map, List.length_map, hlength]
    · intro i hi hi'
      rw [List.length_map] at hi hi'
      rw [List.getElem_map, List.getElem_map]
      have hf : a[i]? = some a[i] := List.getElem?_eq_getElem hi
      have hg : b[i]? = some b[i] := List.getElem?_eq_getElem hi'
      cases hty : a[i].ty.direct? with
      | some ty => exact (h.direct_eq ha hb hcolumns hf hg hty).symm
      | none =>
        cases hty' : b[i].ty.direct? with
        | none => rfl
        | some ty =>
          have hboth := h.direct_eq hb ha hcolumns.symm hg hf hty'
          rw [hty] at hboth
          cases hboth
  · intro h α σ _ c fingerprint calls hcalls
    exact c.run_eq h (Materializer.sound_empty c known fingerprint) fingerprint hcalls

/-- Records with one integer of 32 bits. -/
def idRecords : Catalogue Record where
  model typeName := RecordType.model
    { typeName
      table := ⟨"People", [⟨"Id", "Id", .int32, some 0, none, .application⟩]⟩
      hasFresh := true
      constructors := []
      setters := [("Id", .int32)]
      injected := []
      finish := none }
  scalar typeName := ⟨typeName, .int32⟩
  typeName_model _ := rfl
  typeName_scalar _ := rfl

/-- Two rows with an integer that the database calls the same, first of 32 bits and then of 64. -/
def idCalls : List (Call MemoryCursor) :=
  [.read "Id" (MemoryCursor.ofRows [⟨"Id", "int", .int32⟩] [[.int32 1]] none).advance.2.row,
    .read "Id" (MemoryCursor.ofRows [⟨"Id", "int", .int64⟩] [[.int64 2]] none).advance.2.row]

/-- The second row is refused behind the first one, and is a record for a new materializer. -/
theorem run_idCalls_ne :
    idRecords.run (Materializer.empty fun _ => 0) idCalls ≠
      idCalls.map fun call => (idRecords.perform (Materializer.empty fun _ => 0) call).1 := by
  intro h
  have hcached : (idRecords.run (Materializer.empty fun _ => 0) idCalls)[1]? =
      some (.item (.error ((Fault.of (.conversion (.mismatch .int64 "i32"))).context
        (.mapping (.notPopulated "Id" "Id"))))) := rfl
  have hfresh : (idCalls.map fun call =>
      (idRecords.perform (Materializer.empty fun _ => 0) call).1)[1]? =
      some (.item (.ok (.instance ⟨[("Id", .int32 2)], []⟩))) := rfl
  rw [h, hfresh] at hcached
  cases hcached

end RowQuery
