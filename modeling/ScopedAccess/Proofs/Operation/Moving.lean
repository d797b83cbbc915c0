import ScopedAccess.Proofs.Operation.Provenance
/-!
# Which updates move rows

An update moves a row if it writes to the column of the field for the organization. What it writes
are its changes, signed by the actor and as the hook of the entity leaves them (`World.Writes`),
and that is also what is looked at to tell whether the actor may move rows there. But it is looked
at by the name of the field, and written by its column. A field that has its column alone
(`Entity.HasAlone`) is written under its own name only; then rows stay where they are, unless they
are moved by name to where the actor may write. Nothing keeps a descriptor from putting another
field into the column of the organization, and the rows of such an entity can be moved anywhere
under the name of that field (`stamp_moves_by_motto`).

* `Step.exists_of_update`: what an update writes, and to which rows.
* `organization_kept`: which rows an update moves, and where to.
-/

namespace ScopedAccess

set_option autoImplicit false

/-! ## What an update writes -/

/-- What the hook of an entity makes of changes that are to be written. -/
def Lifecycle.revise (l : Lifecycle) (e : Entity) (actor : Actor) (r : Record) : Hook Record :=
  match l.beforeUpdate e.name with
  | some hook => hook actor r
  | none => pure r

/-- Changes come to be written as a record: signed, and as the hook of the entity leaves them. -/
def World.Writes (w : World) (setting : Setting) (e : Entity) (actor : Actor)
    (changes written : Record) : Prop :=
  ∃ journal, (setting.lifecycle.revise e actor (e.signed actor changes)).run w.journal =
    (.ok written, journal)

section Updates

variable {setting : Setting} {w : World} {e : Entity} {actor : Actor} {s s' : Session}
  {changes r : Record} {filter : Json} {f : Field} {t : Table} {name : String}

theorem asked_journal : (w.asked setting e actor).journal = w.journal := by
  unfold World.asked
  split <;> rfl

/-- A hook that does not fail leaves a payload and a journal. -/
theorem Step.exists_of_beforeUpdate (ran : beforeUpdate setting s = (.ok (), s')) :
    ∃ payload journal,
      (setting.lifecycle.revise s.operation.entity s.operation.actor s.operation.payload).run
        s.world.journal = (.ok payload, journal) ∧
      s' = ⟨{ s.operation with payload }, { s.world with journal }⟩ := by
  rw [Lifecycle.revise]
  cases hooked : setting.lifecycle.beforeUpdate s.operation.entity.name with
  | none =>
      rw [beforeUpdate_none hooked] at ran
      cases ran
      exact ⟨_, _, rfl, rfl⟩
  | some hook =>
      simp only [beforeUpdate, changePayload, run_bind, run_operation, run_read, hooked,
        run_ofHook] at ran
      rcases told : (hook s.operation.actor s.operation.payload).run s.world.journal with
        ⟨failure | payload, journal⟩
      · rw [told] at ran
        cases ran
      · rw [told] at ran
        cases ran
        exact ⟨payload, journal, rfl, rfl⟩

/-- The privileges that an operation uses do not depend on how they have come to be known. -/
theorem usedFor_eq {p q : Privileges}
    (resolved : e.unrestricted = false → (w.privilegesOf setting actor).1 = .ok p)
    (resolved' : e.unrestricted = false → (w.privilegesOf setting actor).1 = .ok q) :
    p.usedFor e = q.usedFor e := by
  rw [Privileges.usedFor, Privileges.usedFor]
  cases unrestricted : e.unrestricted with
  | true => rfl
  | false =>
      have same := (resolved unrestricted).symm.trans (resolved' unrestricted)
      rw [Except.ok.inj same]

/-- The statement of an update writes the payload to some rows, if these stay where they may be
written, or it writes nothing. -/
theorem Step.exists_of_updateRows (going : s.operation.stopped = false)
    (ran : Session.runChain setting
      [(Builtin.update.name, updateRows), (Builtin.audit.name, audit)] s = (.ok (), s')) :
    s'.world.db = s.world.db ∨ s.operation.staysWritable = true ∧ ∃ t wanted,
      s.world.db.stored? s.operation.entity.table = some t ∧
      s'.world.db = s.world.db.set s.operation.entity.table
        (t.changing wanted (Store.assignments s.operation.entity s.operation.payload)) := by
  obtain ⟨s₁, updated, ran⟩ := exists_of_runChain_cons going ran
  cases stays : s.operation.staysWritable with
  | true =>
      rw [updateRows_stays stays] at updated
      obtain ⟨n, db, writes, rfl⟩ := exists_of_run_write updated
      obtain ⟨s₂, audited, ran⟩ := exists_of_runChain_cons (by exact going) ran
      cases audited
      cases ran
      obtain ⟨t, stored, -, rfl⟩ := Database.update?_eq_some (Store.update?_of_ok writes)
      exact .inr ⟨rfl, t, _, stored, rfl⟩
  | false =>
      rw [updateRows_strays stays] at updated
      cases updated
      obtain ⟨s₂, audited, ran⟩ := exists_of_runChain_cons (by exact going) ran
      cases audited
      cases ran
      exact .inl rfl

/-- An update that comes to its end has written its changes to some rows, where its actor may do
so, or it has written nothing. -/
theorem Step.exists_of_update (ran : Session.runChain setting (Callbacks.builtin.chain .update)
      ⟨.start (.update filter changes) e actor, w⟩ = (.ok (), s')) :
    s'.world.db = w.db ∨ ∃ written t wanted, w.Writes setting e actor changes written ∧
      (∀ p, (e.unrestricted = false → (w.privilegesOf setting actor).1 = .ok p) →
        p.mayMake e written = true) ∧
      w.db.stored? e.table = some t ∧
      s'.world.db = w.db.set e.table (t.changing wanted (Store.assignments e written)) := by
  rw [chain_update] at ran
  obtain ⟨f, p, compiled, resolved⟩ := exists_of_runChain_reaching ran
  rw [runChain_reaching compiled resolved] at ran
  have signs : Session.runChain setting Callbacks.updating
      ⟨(Operation.start (.update filter changes) e actor).reached f (p.usedFor e),
        w.asked setting e actor⟩ = _ := runChain_cons_ok rfl stampModifier_reached
  obtain ⟨s₁, hooked, ran⟩ := exists_of_runChain_cons rfl (signs.symm.trans ran)
  obtain ⟨written, journal, revised, rfl⟩ := Step.exists_of_beforeUpdate hooked
  rw [asked_journal] at revised
  rcases Step.exists_of_updateRows rfl ran with same | ⟨stays, t, wanted, stored, changed⟩
  · exact .inl (same.trans asked_db)
  rw [asked_db] at stored changed
  refine .inr ⟨written, t, wanted, ⟨journal, revised⟩, fun q resolved' => ?_, stored, changed⟩
  exact (staysWritable_eq (usedFor_eq resolved resolved')).symm.trans stays

end Updates

/-! ## Columns and rows -/

/-- A field is the only stored one with its column. -/
def Entity.HasAlone (e : Entity) (t : Table) (f : Field) : Prop :=
  ∀ g ∈ e.storedFields, t.sameColumn g.column f.column = true → g = f

/-- A record has a value for the column of a field: under the name of the field, or under that of
another one with the same column. -/
def Entity.Puts (e : Entity) (t : Table) (f : Field) (r : Record) (datum : Datum) : Prop :=
  ∃ g ∈ e.storedFields, ∃ value, t.sameColumn g.column f.column = true ∧
    r.find? g.name = some value ∧ .ofJson value = datum

/-- Row by row, a table has the values of another one in a column, except for some. -/
def Table.Keeps (t : Table) (c : Name) (except : Datum → Prop) (t' : Table) : Prop :=
  List.Forall₂ (fun row row' => row' c = row c ∨ except (row' c)) t.rows t'.rows

section Rows

variable {e : Entity} {t : Table} {f : Field} {r : Record} {c : Name} {wanted : Row → Bool}
  {except except' : Datum → Prop} {t' : Table}

theorem Table.keeps_self : t.Keeps c except t :=
  List.forall₂_same.mpr fun _ _ => .inl rfl

theorem Table.Keeps.imp (keeps : t.Keeps c except t') (imp : ∀ d, except d → except' d) :
    t.Keeps c except' t' := by
  refine List.Forall₂.imp ?_ keeps
  exact fun row row' => Or.imp_right (imp (row' c))

/-- Where there are no exceptions, a column is as it was. -/
theorem Table.Keeps.column_eq (keeps : t.Keeps c except t') (none : ∀ d, ¬ except d) :
    (t'.rows.map fun row => row c) = t.rows.map fun row => row c := by
  have same : List.Forall₂ (· = ·) (t.rows.map fun row => row c) (t'.rows.map fun row => row c) := by
    rw [List.forall₂_map_left_iff, List.forall₂_map_right_iff]
    exact List.Forall₂.imp (fun _ _ either => (either.resolve_right (none _)).symm) keeps
  rw [List.forall₂_eq_eq_eq] at same
  exact same.symm

/-- Where a record is written, a column has its own value or one that the record has for it. -/
theorem keeps_changing : t.Keeps f.column (e.Puts t f r)
    (t.changing wanted (Store.assignments e r)) := by
  rw [Table.Keeps, Table.changing, List.forall₂_map_right_iff]
  refine List.forall₂_same.mpr fun row _ => ?_
  cases wants : wanted row with
  | false => exact .inl rfl
  | true =>
      rw [if_pos rfl]
      refine (changedRow_cases (c := f.column) _ row).imp_right fun written => ?_
      obtain ⟨g, listed, value, found, stored, same⟩ := mem_spread_assignments.mp written
      exact ⟨g, listed, value, same, found, stored⟩

/-- What a record has for a column that a field has alone, it has under the name of the field. -/
theorem Entity.Puts.find? {datum : Datum} (puts : e.Puts t f r datum) (alone : e.HasAlone t f) :
    ∃ value, r.find? f.name = some value ∧ .ofJson value = datum := by
  obtain ⟨g, listed, value, same, found, stored⟩ := puts
  obtain rfl := alone g listed same
  exact ⟨value, found, stored⟩

theorem Entity.SeparatedIn.hasAlone (separated : e.SeparatedIn t) (listed : f ∈ e.storedFields) :
    e.HasAlone t f := by
  intro g listedG same
  exact separated.eq_of_sameColumn listedG listed same (by simp [Table.sameColumn])

end Rows

/-! ## Organizations -/

/-- A value is the text of an organization whose rows of an entity privileges allow to write. -/
def Privileges.MayHold (p : Privileges) (e : Entity) (datum : Datum) : Prop :=
  ∃ s org, datum = .text s ∧ Uuid.ofText? s = some org ∧ org ∈ p.writableFor e.name

section Organizations

variable {setting : Setting} {w : World} {e : Entity} {actor : Actor} {changes r : Record}
  {filter : Json} {f : Field} {t : Table} {name : String} {p : Privileges} {value : Json}

/-- The organization that changes name is one that may be written, if they may be made. -/
theorem mayHold_of_mayMake (owner : e.ownerOrgField? = some f) (restricted : e.unrestricted = false)
    (checked : p.bypass = false) (mayMake : p.mayMake e r = true)
    (found : r.find? f.name = some value) : p.MayHold e (.ofJson value) := by
  have named : r.contains f.name = true := by rw [SortedMap.contains, found]; rfl
  rw [Privileges.mayMake, restricted, checked, owner, Option.all_some, named, Bool.not_true,
    Bool.false_or, Bool.false_or, Bool.false_or, Option.any_eq_true] at mayMake
  obtain ⟨org, names, writable⟩ := mayMake
  obtain ⟨s, text, denotes⟩ := exists_of_uuid? names
  obtain rfl := Option.some.inj (found.symm.trans text)
  exact ⟨s, org, rfl, denotes, of_decide_eq_true writable⟩

/-- Without a hook, changes that do not name a field are written without it, unless the signature
goes there. -/
theorem World.Writes.not_contains {written : Record} (known : f ∈ e.fields)
    (writes : w.Writes setting e actor changes written)
    (unhooked : setting.lifecycle.beforeUpdate e.name = none)
    (unsigned : e.tagged? .lastModifier ≠ some f) (unnamed : changes.contains f.name = false) :
    written.contains f.name = false := by
  obtain ⟨journal, revised⟩ := writes
  rw [Lifecycle.revise, unhooked] at revised
  cases revised
  rw [SortedMap.contains, find?_signed known unsigned]
  exact unnamed

/-- An update leaves the organization of each row as it is, or writes there what it has for the
column. If the field for the organization has its column alone, then no row moves unless what is
written names the field, and rows move only where the principal may write. What is written does
not name the field if the changes do not, there is no hook, and the signature goes elsewhere. -/
theorem organization_kept (w : World) (actor : Actor) (filter : Json) (changes : Record)
    (registered : setting.registry.find? name = some e) (owner : e.ownerOrgField? = some f)
    (stored : w.db.stored? e.table = some t) :
    (∃ t', (w.perform setting .builtin actor name (.update filter changes)).2.db.stored? e.table =
        some t' ∧
      t.Keeps f.column (fun d => ∃ r, w.Writes setting e actor changes r ∧ e.Puts t f r d) t' ∧
      (e.HasAlone t f →
        ((∀ r, w.Writes setting e actor changes r → r.contains f.name = false) →
          (t'.rows.map fun row => row f.column) = t.rows.map fun row => row f.column) ∧
        ∀ p, e.unrestricted = false → (w.privilegesOf setting actor).1 = .ok p →
          p.bypass = false → t.Keeps f.column (p.MayHold e) t')) ∧
    (setting.lifecycle.beforeUpdate e.name = none → e.tagged? .lastModifier ≠ some f →
      changes.contains f.name = false →
        ∀ r, w.Writes setting e actor changes r → r.contains f.name = false) := by
  have known : f ∈ e.fields := (List.mem_filter.mp (Entity.listed_of_owns (.inl owner))).1
  refine ⟨?_, fun unhooked unsigned unnamed r writes =>
    writes.not_contains known unhooked unsigned unnamed⟩
  have idle : (w.perform setting .builtin actor name (.update filter changes)).2.db = w.db →
      (w.perform setting .builtin actor name (.update filter changes)).2.db.stored? e.table =
        some t := fun same => same ▸ stored
  rcases told : (w.perform setting .builtin actor name (.update filter changes)).1
    with failure | outcome
  · exact ⟨t, idle (perform_failed registered told), Table.keeps_self, fun _ =>
      ⟨fun _ => rfl, fun _ _ _ _ => Table.keeps_self⟩⟩
  obtain ⟨s', ran, -, left⟩ := exists_of_perform_ok registered told
  rw [left] at idle ⊢
  rcases Step.exists_of_update ran with same | ⟨r, t₁, wanted, writes, mayMake, stored₁, changed⟩
  · exact ⟨t, idle same, Table.keeps_self, fun _ =>
      ⟨fun _ => rfl, fun _ _ _ _ => Table.keeps_self⟩⟩
  obtain rfl := Option.some.inj (stored.symm.trans stored₁)
  refine ⟨_, changed ▸ Database.stored?_set stored, ?_, fun alone => ⟨fun spared => ?_, ?_⟩⟩
  · exact keeps_changing.imp fun d puts => ⟨r, writes, puts⟩
  · refine keeps_changing.column_eq fun d puts => ?_
    obtain ⟨value, found, -⟩ := puts.find? alone
    have unnamed := spared r writes
    rw [SortedMap.contains, found] at unnamed
    cases unnamed
  · intro p restricted resolved checked
    refine keeps_changing.imp fun d puts => ?_
    obtain ⟨value, found, rfl⟩ := puts.find? alone
    exact mayHold_of_mayMake owner restricted checked (mayMake p fun _ => resolved) found

end Organizations

namespace Notebook

/-- How stamps are described. -/
def stampDescriptor : EntityDescriptor where
  name := "stamp"
  table := some "stamps"
  unrestricted := false
  fields := [⟨"id", none, [.primaryKey], none⟩, ⟨"motto", some "org_id", [], none⟩,
    ⟨"org", some "org_id", [.ownerOrg], none⟩]

/-- The mailbox with a stamp of the office, which the writer has created. -/
def stamped : World :=
  (mailbox.perform counter .builtin writer "stamp"
    (.create (.ofList [("id", .str "1"), ("org", .ofUuid office)]))).2

/-- A motto that is the identifier of another organization. -/
def motto : Record := .ofList [("motto", .ofUuid elsewhere)]

/-- The organizations of the stamps. -/
def stampOrganizations (w : World) : Option (List Datum) :=
  (w.db.stored? stamps.table).map fun t => t.rows.map fun row => row "org_id"

end Notebook

open Notebook in
/-- The writer may write the rows of the office only, but moves a stamp to another organization by
giving it a motto. -/
theorem stamp_moves_by_motto :
    Entity.ofDescriptor stampDescriptor = .ok stamps ∧ counter.registry.validate = .ok () ∧
    counter.registry.find? "stamp" = some stamps ∧ stamps.ownerOrgField?.map Field.name = some "org" ∧
    (stamped.privilegesOf counter writer).1 = .ok writing ∧ writing.bypass = false ∧
    elsewhere ∉ writing.writableFor stamps.name ∧ motto.contains "org" = false ∧
    stampOrganizations stamped = some [.text office.text] ∧
    (stamped.perform counter .builtin writer "stamp"
      (.update .null motto)).1.toOption.map Outcome.affected = some 1 ∧
    stampOrganizations (stamped.perform counter .builtin writer "stamp" (.update .null motto)).2 =
      some [.text elsewhere.text] := by
  exact ⟨rfl, rfl, rfl, rfl, by decide +kernel, rfl, by decide +kernel, by decide +kernel,
    by decide +kernel, by decide +kernel, by decide +kernel⟩

namespace Notebook

/-- A sketch of the office. -/
def sketch : Row := note "7" "Sketch" "1" office.text

/-- The world with a sketch, after the writer has made changes to it. -/
def amending (changes : List (String × Json)) : World :=
  ((world [] [sketch]).perform setting .builtin writer "note" (.update .null (.ofList changes))).2

end Notebook

open Notebook in
/-- A sketch that gets another title stays in the office, and it cannot be sent elsewhere. -/
theorem sketch_stays :
    (∃ t, (amending [("title", .str "Plan")]).db.stored? notes.table = some t ∧
      (t.rows.map fun row => row "org_id") = [.text office.text]) ∧
    ∃ t, (amending [("org", .ofUuid elsewhere)]).db.stored? notes.table = some t ∧
      (tableOf notes [sketch]).Keeps "org_id" (writing.MayHold notes) t := by
  have owner : notes.ownerOrgField? = some ⟨"org", "org_id", [.ownerOrg], none⟩ := rfl
  have alone := (notes_separated [sketch]).hasAlone (Entity.listed_of_owns (.inl owner))
  have kept := fun changes => organization_kept (world [] [sketch]) writer .null changes find?_note
    owner (stored?_notes [] [sketch])
  obtain ⟨⟨t, titled, -, stays⟩, unnamed⟩ := kept (.ofList [("title", .str "Plan")])
  obtain ⟨⟨t', sent, -, moves⟩, -⟩ := kept (.ofList [("org", .ofUuid elsewhere)])
  have here : ((tableOf notes [sketch]).rows.map fun row => row "org_id") = [.text office.text] := by
    decide +kernel
  refine ⟨⟨t, titled, ?_⟩, t', sent, ?_⟩
  · exact ((stays alone).1 (unnamed rfl (by decide) (by decide +kernel))).trans here
  · exact (moves alone).2 writing rfl (privilegesOf_writer [] [sketch]) rfl

end ScopedAccess
