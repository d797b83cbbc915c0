import ScopedAccess.Proofs.Operation.Acting
import ScopedAccess.Proofs.Operation.Noninterference
import ScopedAccess.Proofs.Sql.Veiling
/-!
# What a query lets its client infer about secrets

Secrets are taken out of the records that a query shows, and that is all that is done about them. A
filter may test a secret field like any other, the rows may be ordered by it, and an application's
hook sees it before it is taken out.

Where a query does none of this (`World.Overlooks`), its outcome does not depend on secrets: it is
the same in two databases that have the same tables but for the columns of secret fields.

* `secrets_overlooked`: the outcome of a query in two such databases.
-/

namespace ScopedAccess

set_option autoImplicit false

/-- The columns of the secret fields of all entities. -/
def Registry.secrets (registry : Registry) : Veil := fun table column =>
  registry.entities.entries.any fun (_, e) => decide (Name.of e.table = table) &&
    e.storedFields.any fun f => f.isSecret && decide (Name.of f.column = column)

/-- What the hook of an entity makes of records does not depend on their secrets, but for the
secrets that it leaves. -/
def Lifecycle.Discreet (l : Lifecycle) (e : Entity) (actor : Actor) : Prop :=
  ∀ (records records' : List Record) (journal : Journal),
    records.map e.redact = records'.map e.redact →
    ((records.mapM (l.reveal e actor)).run journal).1.map (List.map e.redact) =
      ((records'.mapM (l.reveal e actor)).run journal).1.map (List.map e.redact)

/-- A query looks at no veiled column. The filter of the client does not read any, nor do the guards
of scope and deletion, the rows are not ordered by one, no field that is shown has one, and the hook
of the entity is discreet. -/
structure World.Overlooks (w : World) (setting : Setting) (actor : Actor) (e : Entity)
    (request : Request) (veil : Veil) : Prop where
  filter : ∀ f, compile setting.registry setting.limits.maxFilterDepth e request.filter = .ok f →
    ∀ p ∈ f.parts, p.Overlooks veil e.table
  guards : ∀ p ∈ (Operation.start request e actor).guards (w.used? setting e actor),
    p.Overlooks veil e.table
  order : veil e.table e.primaryKey.column = false
  shown : ∀ f ∈ e.storedFields, f.isSecret = false → veil e.table f.column = false
  hook : setting.lifecycle.Discreet e actor

theorem Lifecycle.discreet_of_unhooked {l : Lifecycle} {e : Entity} {actor : Actor}
    (unhooked : l.afterFind e.name = none) : l.Discreet e actor := by
  intro records records' journal same
  rw [reveal_of_unhooked unhooked, List.mapM_pure, List.mapM_pure, List.map_id', List.map_id']
  exact congrArg Except.ok same

/-! ## Statements -/

section Statements

variable {veil : Veil} {db db' : Database} {e : Entity} {p : Predicate} {t t' : Table}

theorem shown_congr
    (shown : ∀ f ∈ e.storedFields, f.isSecret = false → veil e.table f.column = false)
    {row row' : Row} (same : veiledRow (veil e.table) row = veiledRow (veil e.table) row') :
    e.shown row = e.shown row' := by
  rw [Entity.shown, Entity.shown]
  congr 1
  refine List.map_congr_left fun f member => ?_
  obtain ⟨member, open_⟩ := List.mem_filter.mp member
  rw [veiledRow_eq_iff.mp same _ (shown f member (by simpa using open_))]

theorem passes_veiled (agree : db.AgreeUnder veil db') (overlooks : p.Overlooks veil e.table)
    (columns : t.columns = t'.columns) {row row' : Row}
    (same : veiledRow (veil e.table) row = veiledRow (veil e.table) row') :
    db.passes e.table t p.condition row = db'.passes e.table t' p.condition row' := by
  have alike : BoundPair.Agree veil [⟨e.table, e.table, t.columns, row, row'⟩] :=
    List.forall_mem_singleton.mpr same
  have truth := evaluate_congr agree p alike overlooks
  rw [Predicate.passes_condition, Predicate.passes_condition]
  exact congrArg Truth.isYes (columns ▸ truth)

/-- Two databases that are the same but for veiled columns both refuse a statement that reads none
of them, or both find the same rows but for veiled columns. -/
theorem Store.select_veiled (agree : db.AgreeUnder veil db') (overlooks : p.Overlooks veil e.table)
    (order : veil e.table e.primaryKey.column = false) (offset limit : Nat) :
    (select db e p.condition offset (some limit) = .error .engine ∧
      select db' e p.condition offset (some limit) = .error .engine) ∨
    ∃ (rows rows' : List Row) (n : Nat),
      rows.map (veiledRow (veil e.table)) = rows'.map (veiledRow (veil e.table)) ∧
      select db e p.condition offset (some limit) = .ok (rows.map (recordOf e)) ∧
      select db' e p.condition offset (some limit) = .ok (rows'.map (recordOf e)) ∧
      count db e p.condition = .ok n ∧ count db' e p.condition = .ok n := by
  rcases agree.cases e.table with ⟨none, none'⟩ | ⟨t, t', there, there', columns, rows⟩
  · exact .inl ⟨select_of_no_table none _ _, select_of_no_table none' _ _⟩
  have number : t.rows.isEmpty = t'.rows.isEmpty := by
    rw [← List.isEmpty_map, rows, List.isEmpty_map]
  have same : takes db e t p.condition offset = takes db' e t' p.condition offset :=
    takes_congr agree.limits columns (accepts_congr agree.columns p.condition)
      fun others => reads_congr agree.limits (.inl number)
  rw [select_eq there, select_eq there', ← same]
  cases taken : takes db e t p.condition offset with
  | false => exact .inl ⟨rfl, rfl⟩
  | true =>
      have passing : (t.rows.filter (db.passes e.table t p.condition)).map
            (veiledRow (veil e.table)) =
          (t'.rows.filter (db'.passes e.table t' p.condition)).map (veiledRow (veil e.table)) :=
        filter_congr_of_veiled rows fun row row' => passes_veiled agree overlooks columns
      have ordered := inOrderOf_congr order passing
      refine .inr ⟨_, _, _, ?_, rfl, rfl, count_of_takes there taken, ?_⟩
      · rw [List.map_take, List.map_take, List.map_drop, List.map_drop, ordered]
      · rw [count_of_takes there' (same ▸ taken), List.countP_eq_length_filter,
          List.countP_eq_length_filter]
        have lengths := congrArg List.length passing
        rw [List.length_map, List.length_map] at lengths
        rw [lengths]

end Statements

/-! ## Queries -/

section Queries

variable {veil : Veil} {setting : Setting} {w : World} {db' : Database} {request : Request}
  {e : Entity} {actor : Actor} {name : String} {s : Session} {filter : Json} {page : Page}
  {f : CompiledFilter} {p : Privileges}

/-- What a client is told of rows found depends on what the hook makes of them but for secrets. -/
theorem told_finding {records : List Record} {n : Nat} (going : s.operation.stopped = false)
    (selected : Store.select s.world.db s.operation.entity s.operation.condition
      s.operation.page.offset (some (setting.limits.pageLimit s.operation.page.limit)) =
        .ok records)
    (counted : Store.count s.world.db s.operation.entity s.operation.condition = .ok n) :
    Session.told (Session.runChain setting Callbacks.finding s) =
      match ((records.mapM (setting.lifecycle.reveal s.operation.entity s.operation.actor)).run
          s.world.journal).1.map (List.map s.operation.entity.redact) with
      | .ok rows => .ok { s.operation.outcome with
          rows, total := if s.operation.page.withTotal then some n else none }
      | .error failure => .error (failure.attributedTo Builtin.afterFind.name) := by
  have found : Session.runChain setting Callbacks.finding s = _ :=
    runChain_cons_ok going (Step.queryRows_ok selected counted)
  rw [found]
  rcases revealed : (records.mapM (setting.lifecycle.reveal s.operation.entity
    s.operation.actor)).run s.world.journal with ⟨failure | rows, journal⟩
  · rw [runChain_cons_error (by exact going) (Step.run_afterFind.trans (by rw [revealed]))]
    rfl
  · rw [runChain_cons_ok (by exact going) (Step.run_afterFind.trans (by rw [revealed])),
      runChain_cons_ok (by exact going) rfl, runChain_cons_ok (by exact going) rfl]
    rfl

/-- What a query tells of the rows that its statement finds. -/
theorem perform_query_told {t : Table} {found : List Row}
    (registered : setting.registry.find? name = some e)
    (compiled : compile setting.registry setting.limits.maxFilterDepth e filter = .ok f)
    (resolved : e.unrestricted = false → (w.privilegesOf setting actor).1 = .ok p)
    (stored : w.db.table? e.table = some t)
    (taken : Store.takes w.db e t (Operation.querying e actor filter page f p).condition
      page.offset = true)
    (wanted : inOrderOf e.primaryKey.column (t.rows.filter (w.db.passes e.table t
      (Operation.querying e actor filter page f p).condition)) = found) :
    (w.perform setting .builtin actor name (.query filter page)).1 =
      match (((((found.drop page.offset).take (setting.limits.pageLimit page.limit)).map
          (Store.recordOf e)).mapM (setting.lifecycle.reveal e actor)).run
            (w.asked setting e actor).journal).1.map (List.map e.redact) with
      | .ok rows => .ok ⟨rows, if page.withTotal then some found.length else none, 0⟩
      | .error failure => .error (failure.attributedTo Builtin.afterFind.name) := by
  have same : (w.asked setting e actor).db = w.db := asked_db
  have selects : Store.select w.db e (Operation.querying e actor filter page f p).condition
      page.offset (some (setting.limits.pageLimit page.limit)) = _ :=
    Store.select_eq stored page.offset (setting.limits.pageLimit page.limit)
  rw [taken, if_pos rfl, wanted, ← same] at selects
  have counts := Store.count_of_takes stored taken
  rw [List.countP_eq_length_filter, ← (inOrderOf_perm e.primaryKey.column _).length_eq, wanted,
    ← same] at counts
  rw [perform_fst registered, show (Request.query filter page).phase = .query from rfl,
    runChain_query compiled resolved]
  exact told_finding rfl selects counts

/-- The parts of a reached filter are those of the client's, and the guards. -/
theorem overlooks_reached (o : Operation) {p? : Option Privileges}
    (client : ∀ q ∈ f.parts, q.Overlooks veil o.entity.table)
    (guards : ∀ q ∈ o.guards p?, q.Overlooks veil o.entity.table) :
    (o.reached f p?).filter.predicate.Overlooks veil o.entity.table := by
  unfold Predicate.Overlooks
  rw [CompiledFilter.predicate, Predicate.reads_conj]
  intro r member
  obtain ⟨q, part, read⟩ := List.mem_flatMap.mp member
  rcases List.mem_append.mp part with fragment | group
  · rcases List.mem_append.mp fragment with fragment | guard
    · exact client q (List.mem_append_left _ fragment) r read
    · exact guards q guard r read
  · exact client q (List.mem_append_right _ group) r read

/-- A client is told the same of what is found in two databases that are the same but for veiled
columns. -/
theorem told_congr
    (compiled : compile setting.registry setting.limits.maxFilterDepth e filter = .ok f)
    (resolved : e.unrestricted = false → (w.privilegesOf setting actor).1 = .ok p)
    (agree : w.db.AgreeUnder veil db')
    (overlooks : w.Overlooks setting actor e (.query filter page) veil) :
    Session.told (Session.runChain setting Callbacks.finding
        ⟨.querying e actor filter page f p, { w.asked setting e actor with db := db' }⟩) =
      Session.told (Session.runChain setting Callbacks.finding
        ⟨.querying e actor filter page f p, w.asked setting e actor⟩) := by
  obtain ⟨client, guards, order, shown, hook⟩ := overlooks
  have reads : (Operation.querying e actor filter page f p).filter.predicate.Overlooks veil
      e.table := overlooks_reached (.start (.query filter page) e actor) (client f compiled)
        (World.used?_eq resolved ▸ guards)
  have same : (w.asked setting e actor).db = w.db := asked_db
  rcases Store.select_veiled agree reads order page.offset
      (setting.limits.pageLimit page.limit) with
    ⟨refused, refused'⟩ | ⟨rows, rows', n, alike, found, found', number, number'⟩
  · rw [← same] at refused
    exact (told_refused (by rfl) (by exact refused')).trans
      (told_refused (by rfl) (by exact refused)).symm
  · rw [← same] at found number
    have shows : (rows.map (Store.recordOf e)).map e.redact =
        (rows'.map (Store.recordOf e)).map e.redact := by
      simp only [List.map_map, Function.comp_def, e.redact_recordOf]
      exact map_congr_of_veiled alike fun row row' => shown_congr shown
    have tells : Session.told (Session.runChain setting Callbacks.finding
        ⟨.querying e actor filter page f p, w.asked setting e actor⟩) = _ :=
      told_finding rfl found number
    have tells' : Session.told (Session.runChain setting Callbacks.finding
        ⟨.querying e actor filter page f p, { w.asked setting e actor with db := db' }⟩) = _ :=
      told_finding rfl found' number'
    rw [tells, tells']
    have reveals := hook _ _ (w.asked setting e actor).journal shows
    simp only [Operation.querying, Operation.reached, Operation.start] at reveals ⊢
    rw [reveals]

/-- A query that does not look at the columns of secret fields has one outcome in two databases that
are the same but for the values of these. -/
theorem secrets_overlooked (w : World) (db' : Database) (page : Page)
    (registered : setting.registry.find? name = some e)
    (agree : w.db.AgreeUnder setting.registry.secrets db')
    (overlooks : w.Overlooks setting actor e (.query filter page) setting.registry.secrets) :
    ({ w with db := db' }.perform setting .builtin actor name (.query filter page)).1 =
      (w.perform setting .builtin actor name (.query filter page)).1 := by
  rw [perform_fst registered, perform_fst registered]
  show Session.told (Session.runChain setting (Callbacks.reaching ++ Callbacks.finding) _) =
    Session.told (Session.runChain setting (Callbacks.reaching ++ Callbacks.finding) _)
  cases compiled : compile setting.registry setting.limits.maxFilterDepth e filter with
  | error reason =>
      rw [runChain_uncompiled compiled, runChain_uncompiled compiled]
      rfl
  | ok f =>
      rcases privilegesOf_cases w setting e actor with ⟨restricted, reason, refused⟩ | ⟨p, resolved⟩
      · have refused' : ({ w with db := db' }.privilegesOf setting actor).1 = .error reason :=
          refused
        rw [runChain_unresolved compiled restricted refused,
          runChain_unresolved compiled restricted refused']
        rfl
      · have resolved' : e.unrestricted = false →
            ({ w with db := db' }.privilegesOf setting actor).1 = .ok p := resolved
        rw [runChain_reaching compiled resolved, runChain_reaching compiled resolved', asked_over]
        exact told_congr compiled resolved agree overlooks

end Queries

namespace Notebook

/-- A note with a secret. -/
def pinned (pin : String) : Row :=
  newRow [("id", .text "7"), ("title", .text "Sketch"), ("folder_id", .text "1"),
    ("org_id", .text office.text), ("pin", .text pin)]

/-- Asks for the notes with a secret. -/
def pinnedWith (pin : String) : Json := .obj [("pin", .str pin)]

/-- Badges with secrets wherever they can have some. -/
def badges : Entity where
  name := "badge"
  table := "badges"
  unrestricted := false
  fields := [⟨"id", "id", [.primaryKey, .secret], none⟩, ⟨"label", "label", [], none⟩,
    ⟨"code", "code", [.secret], none⟩, ⟨"copy", "code", [], none⟩,
    ⟨"org", "org_id", [.ownerOrg, .secret], none⟩,
    ⟨"revoked", "revoked_at", [.softDelete, .secret], none⟩]
  wellTagged := ⟨by decide, by decide, by decide⟩

def badge (id label code : String) (org : Uuid) (revoked : Datum) : Row :=
  newRow [("id", .text id), ("label", .text label), ("code", .text code),
    ("org_id", .text org.text), ("revoked_at", revoked)]

/-- A badge in use at the office. -/
def worn (id label : String) : Row := badge id label "x" office .null

/-- A setting for badges. -/
def desk : Setting := { setting with registry := ⟨.ofList [("badge", badges)]⟩ }

def drawer (inBadges : List Row) : World :=
  .ofDatabase (Database.empty.set badges.table (tableOf badges inBadges)) (.ofSource source)

/-- A query tells worlds apart that differ in secrets only. -/
def TellsApart (setting : Setting) (name : String) (filter : Json) (w w' : World) : Prop :=
  w' = { w with db := w'.db } ∧ w.db.AgreeUnder setting.registry.secrets w'.db ∧
    (w.perform setting .builtin writer name (.query filter ⟨0, none, true⟩)).1 ≠
      (w'.perform setting .builtin writer name (.query filter ⟨0, none, true⟩)).1

theorem notes_agree {inNotes inNotes' : List Row}
    (same : inNotes.map (veiledRow (registry.secrets notes.table)) =
      inNotes'.map (veiledRow (registry.secrets notes.table))) (inFolders : List Row) :
    (database inFolders inNotes).AgreeUnder registry.secrets (database inFolders inNotes') := by
  refine Database.agreeUnder_of_tables rfl rfl fun n => ?_
  simp only [database]
  split
  · rfl
  · split
    · rename_i named
      subst named
      exact congrArg some (congrArg (Table.mk _ _) same)
    · rfl

theorem drawer_agree {inBadges inBadges' : List Row}
    (same : inBadges.map (veiledRow (desk.registry.secrets badges.table)) =
      inBadges'.map (veiledRow (desk.registry.secrets badges.table))) :
    (drawer inBadges).db.AgreeUnder desk.registry.secrets (drawer inBadges').db := by
  refine Database.agreeUnder_of_tables rfl rfl fun n => ?_
  simp only [drawer, World.ofDatabase, Database.set]
  split
  · rename_i named
    subst named
    exact congrArg some (congrArg (Table.mk _ _) same)
  · rfl

theorem pins_agree (inFolders : List Row) : (database inFolders [pinned "1"]).AgreeUnder
    registry.secrets (database inFolders [pinned "2"]) := by
  have same : veiledRow (registry.secrets notes.table) (pinned "1") =
      veiledRow (registry.secrets notes.table) (pinned "2") := veiledRow_newRow (by decide +kernel)
  have rows : [pinned "1"].map (veiledRow (registry.secrets notes.table)) =
      [pinned "2"].map (veiledRow (registry.secrets notes.table)) :=
    congrArg (fun row => [row]) same
  exact notes_agree rows inFolders

/-- A query of notes by their folders does not look at pins. -/
theorem plans_overlook (inFolders inNotes : List Row) :
    (world inFolders inNotes).Overlooks setting writer notes (.query inPlans ⟨0, none, true⟩)
      registry.secrets := by
  refine ⟨fun f compiled => ?_, ?_, by decide +kernel, by decide +kernel,
    Lifecycle.discreet_of_unhooked rfl⟩
  · obtain rfl := Except.ok.inj (inPlans_compiled.symm.trans compiled)
    unfold Predicate.Overlooks
    decide +kernel
  · rw [World.used?_eq fun _ => privilegesOf_writer inFolders inNotes]
    unfold Predicate.Overlooks
    decide +kernel

end Notebook

open Notebook in
/-- A pin shows in no query of notes by their folders. -/
theorem pins_overlooked :
    pinned "1" "pin" ≠ pinned "2" "pin" ∧
      ((world [folder "1" "Plans" office.text] [pinned "2"]).perform setting .builtin writer "note"
          (.query inPlans ⟨0, none, true⟩)).1 =
        ((world [folder "1" "Plans" office.text] [pinned "1"]).perform setting .builtin writer
          "note" (.query inPlans ⟨0, none, true⟩)).1 :=
  ⟨by decide +kernel, secrets_overlooked (world [folder "1" "Plans" office.text] [pinned "1"])
    (database [folder "1" "Plans" office.text] [pinned "2"]) ⟨0, none, true⟩ find?_note
      (pins_agree _) (plans_overlook _ _)⟩

namespace Notebook

/-- A setting in which a hook refuses to show a note with a certain pin. -/
def watched : Setting :=
  { setting with lifecycle := { Lifecycle.empty with
      afterFind := Lifecycle.put (fun _ => none) "note" fun _ r =>
        match r.find? "pin" with
        | some (.str "1") => throw (.other ["not this one"])
        | _ => pure r } }

theorem ne_of_totals {told told' : Except OperationError Outcome}
    (other : told.toOption.bind Outcome.total ≠ told'.toOption.bind Outcome.total) :
    told ≠ told' := fun same => other (same ▸ rfl)

theorem table?_badges (inBadges : List Row) :
    (drawer inBadges).db.table? badges.table = some (tableOf badges inBadges) := by
  rw [Database.table?_of_free (by decide +kernel)]
  exact if_pos rfl

theorem privilegesOf_clerk (inBadges : List Row) :
    ((drawer inBadges).privilegesOf desk writer).1 = .ok writing := resolve_writer

theorem find?_badge : desk.registry.find? "badge" = some badges := by
  simp [desk, Registry.find?, SortedMap.ofList, SortedMap.find?_insert]

/-- What a query of badges tells of those that are found. -/
theorem drawer_tells {inBadges found : List Row}
    (taken : Store.takes (drawer inBadges).db badges (tableOf badges inBadges)
      (Operation.querying badges writer .null ⟨0, none, true⟩ ∅ writing).condition 0 = true)
    (all : ∀ row ∈ inBadges, (drawer inBadges).db.passes badges.table (tableOf badges inBadges)
      (Operation.querying badges writer .null ⟨0, none, true⟩ ∅ writing).condition row = true)
    (ordered : inOrderOf badges.primaryKey.column inBadges = found) :
    ((drawer inBadges).perform desk .builtin writer "badge" (.query .null ⟨0, none, true⟩)).1 =
      .ok ⟨(found.take (desk.limits.pageLimit none)).map badges.shown, some found.length, 0⟩ := by
  have wanted : (tableOf badges inBadges).rows.filter _ = inBadges := List.filter_eq_self.mpr all
  rw [← wanted] at ordered
  rw [perform_query_told find?_badge rfl (fun _ => privilegesOf_clerk inBadges)
    (table?_badges inBadges) taken ordered, Lifecycle.reveal_of_unhooked rfl, List.mapM_pure]
  have shows : ((found.take (desk.limits.pageLimit none)).map (Store.recordOf badges)).map
      badges.redact = (found.take (desk.limits.pageLimit none)).map badges.shown := by
    simp only [List.map_map, Function.comp_def, badges.redact_recordOf]
  rw [List.map_id', ← shows]
  rfl

/-- A badge of the same label has other secrets. -/
theorem badge_alike {id id' label code code' : String} {org org' : Uuid}
    {revoked revoked' : Datum} :
    veiledRow (desk.registry.secrets badges.table) (badge id label code org revoked) =
      veiledRow (desk.registry.secrets badges.table) (badge id' label code' org' revoked') := by
  have secret : ∀ c ∈ [Name.of "id", "code", "org_id", "revoked_at"],
      desk.registry.secrets badges.table c = true := by decide +kernel
  simp only [List.forall_mem_cons] at secret
  obtain ⟨id, code, org, revoked, -⟩ := secret
  apply veiledRow_newRow
  simp only [List.filter_cons, List.filter_nil, id, code, org, revoked, Bool.not_true,
    Bool.false_eq_true, if_false]

/-- The text of a field of the first row shown. -/
def firstText (field : String) (told : Except OperationError Outcome) : Option String :=
  (told.toOption.bind fun o => o.rows.head?).bind fun r =>
    match r.find? field with
    | some (.str s) => some s
    | _ => none

theorem ne_of_firstText (field : String) {told told' : Except OperationError Outcome}
    (other : firstText field told ≠ firstText field told') : told ≠ told' :=
  fun same => other (same ▸ rfl)

theorem keys_tell_apart : TellsApart desk "badge" .null
    (drawer [worn "1" "Ann", worn "2" "Bob"]) (drawer [worn "2" "Ann", worn "1" "Bob"]) := by
  refine ⟨rfl, drawer_agree (congrArg₂ (fun a b => [a, b]) badge_alike badge_alike), ?_⟩
  have inOrder : inOrderOf "id" [worn "1" "Ann", worn "2" "Bob"] =
      [worn "1" "Ann", worn "2" "Bob"] :=
    List.mergeSort_of_pairwise (by decide +kernel)
  have swapped : inOrderOf "id" [worn "2" "Ann", worn "1" "Bob"] =
      [worn "1" "Bob", worn "2" "Ann"] := by
    have behind : (worn "2" "Ann" "id").sortsBefore (worn "1" "Bob" "id") = false := by
      decide +kernel
    simp [inOrderOf, List.mergeSort, behind]
  rw [drawer_tells (by decide +kernel) (by decide +kernel) inOrder,
    drawer_tells (by decide +kernel) (by decide +kernel) swapped]
  exact ne_of_firstText "label" (by decide +kernel)

theorem copies_tell_apart : TellsApart desk "badge" .null (drawer [worn "1" "Ann"])
    (drawer [badge "1" "Ann" "y" office .null]) := by
  refine ⟨rfl, drawer_agree (congrArg (fun a => [a]) badge_alike), ?_⟩
  rw [drawer_tells (by decide +kernel) (by decide +kernel) (List.mergeSort_singleton _),
    drawer_tells (by decide +kernel) (by decide +kernel) (List.mergeSort_singleton _)]
  exact ne_of_firstText "copy" (by decide +kernel)

/-- What a query tells of a note of which a hook makes something. -/
theorem watched_tells {pin : String}
    (taken : Store.takes (world [] [pinned pin]).db notes (tableOf notes [pinned pin])
      (Operation.querying notes writer .null ⟨0, none, true⟩ ∅ writing).condition 0 = true)
    (found : (world [] [pinned pin]).db.passes notes.table (tableOf notes [pinned pin])
      (Operation.querying notes writer .null ⟨0, none, true⟩ ∅ writing).condition (pinned pin) =
        true) :
    ((world [] [pinned pin]).perform watched .builtin writer "note"
        (.query .null ⟨0, none, true⟩)).1 =
      match (([Store.recordOf notes (pinned pin)].mapM (watched.lifecycle.reveal notes writer)).run
          ((world [] [pinned pin]).asked watched notes writer).journal).1.map
            (List.map notes.redact) with
      | .ok rows => .ok ⟨rows, some 1, 0⟩
      | .error failure => .error (failure.attributedTo Builtin.afterFind.name) := by
  have registered : watched.registry.find? "note" = some notes := find?_note
  have resolved : ((world [] [pinned pin]).privilegesOf watched writer).1 = .ok writing :=
    resolve_writer
  have wanted : inOrderOf notes.primaryKey.column
      ((tableOf notes [pinned pin]).rows.filter _) = [pinned pin] :=
    (congrArg _ (List.filter_cons_of_pos found)).trans (List.mergeSort_singleton _)
  rw [perform_query_told registered rfl (fun _ => resolved) (table?_notes [] _) taken wanted]
  rfl

theorem hooks_tell_apart :
    TellsApart watched "note" .null (world [] [pinned "1"]) (world [] [pinned "2"]) := by
  refine ⟨rfl, pins_agree [], ?_⟩
  rw [watched_tells (by decide +kernel) (by decide +kernel),
    watched_tells (by decide +kernel) (by decide +kernel)]
  apply ne_of_totals
  decide +kernel

end Notebook

open Notebook in
/-- Secrets show in queries. A filter can ask for them, they can settle whether a row is there for
its reader or deleted, they can order the rows, a field that is no secret can have their column, and
a hook can look at them. -/
theorem secrets_show :
    TellsApart setting "note" (pinnedWith "1") (world [] [pinned "1"]) (world [] [pinned "2"]) ∧
    TellsApart desk "badge" .null (drawer [worn "1" "Ann"])
      (drawer [badge "1" "Ann" "x" elsewhere .null]) ∧
    TellsApart desk "badge" .null (drawer [worn "1" "Ann"])
      (drawer [badge "1" "Ann" "x" office (.text "today")]) ∧
    TellsApart desk "badge" .null (drawer [worn "1" "Ann", worn "2" "Bob"])
      (drawer [worn "2" "Ann", worn "1" "Bob"]) ∧
    TellsApart desk "badge" .null (drawer [worn "1" "Ann"])
      (drawer [badge "1" "Ann" "y" office .null]) ∧
    TellsApart watched "note" .null (world [] [pinned "1"]) (world [] [pinned "2"]) := by
  have alike {org : Uuid} {revoked : Datum} :
      (drawer [worn "1" "Ann"]).db.AgreeUnder desk.registry.secrets
        (drawer [badge "1" "Ann" "x" org revoked]).db :=
    drawer_agree (congrArg (fun row => [row]) badge_alike)
  refine ⟨⟨rfl, pins_agree [], ne_of_totals (by decide +kernel)⟩,
    ⟨rfl, alike, ne_of_totals (by decide +kernel)⟩, ⟨rfl, alike, ne_of_totals (by decide +kernel)⟩,
    keys_tell_apart, copies_tell_apart, hooks_tell_apart⟩

end ScopedAccess
