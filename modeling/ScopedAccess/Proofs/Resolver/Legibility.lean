import ScopedAccess.Proofs.Resolver.Interleaving
/-!
# Entries that the service writes

An entry is read back from its text if the second at which it ends fits a word, which those of the
assignments of a source do (`SourceData.Fits`). So the service writes no entry that it cannot read.
That is known of its programs, whatever their calls are answered with as long as assignments fit
(`Program.Ensures`), and so it holds of the cache at all times, whatever calls interleave and
whatever fails (`Traffic.Legible`).

* `entries_read_back`: what is read from entries, also where members have been left out, and which
  entries are in the cache.
-/

namespace ScopedAccess

set_option autoImplicit false

variable {α β : Type}

/-! ## What a program ensures -/

namespace Program

variable {given : (call : Call) → call.Answer → Prop} {asks : Call → Prop} {mid : α → Prop}
  {post : β → Prop}

/-- Whether all calls that a program makes have a property, and its result has one, as long as the
answers are as they should be. -/
def Ensures (given : (call : Call) → call.Answer → Prop) (asks : Call → Prop) (post : α → Prop) :
    Program α → Prop
  | done result => post result
  | ask call next => asks call ∧ ∀ answer, given call answer → (next answer).Ensures given asks post

theorem Ensures.bind {x : Program α} {f : α → Program β} (first : x.Ensures given asks mid)
    (rest : ∀ a, mid a → (f a).Ensures given asks post) :
    (x.bind f).Ensures given asks post := by
  induction x with
  | done result => exact rest result first
  | ask call next ih =>
      exact ⟨first.1, fun answer as => ih answer (first.2 answer as)⟩

end Program

/-- What a program that may fail ensures, with a property of what it ends with if it does not. -/
def Attempt.Ensures (given : (call : Call) → call.Answer → Prop) (asks : Call → Prop)
    (post : α → Prop) (x : Attempt α) : Prop :=
  x.run.Ensures given asks fun result => ∀ a, result = .ok a → post a

namespace Attempt

variable {given : (call : Call) → call.Answer → Prop} {asks : Call → Prop} {mid : α → Prop}
  {post : β → Prop}

theorem ensures_pure {a : α} (holds : mid a) :
    Attempt.Ensures given asks mid (pure a : Attempt α) := by
  rintro _ ⟨⟩
  exact holds

theorem ensures_throw (e : ResolveError) :
    Attempt.Ensures given asks mid (throw e : Attempt α) := nofun

theorem Ensures.bind {x : Attempt α} {f : α → Attempt β} (first : x.Ensures given asks mid)
    (rest : ∀ a, mid a → (f a).Ensures given asks post) :
    Attempt.Ensures given asks post (x >>= f) := by
  refine Program.Ensures.bind first fun result holds => ?_
  cases result with
  | ok a => exact rest a (holds a rfl)
  | error e => exact nofun

theorem ensures_ask (call : Call) (has : asks call) : call.ask.Ensures given asks
    fun answer => given call (.ok answer) := by
  refine ⟨has, fun answer as => ?_⟩
  rintro _ rfl
  exact as

/-- A call whose answer does not matter. -/
theorem ensures_call (call : Call) (has : asks call) :
    call.ask.Ensures given asks fun _ => True :=
  ⟨has, fun _ _ _ _ => trivial⟩

end Attempt

/-! ## What the service ensures -/

/-- Whether assignments end at seconds that fit a word. -/
def EndingsFit (assignments : List RoleAssignment) : Prop :=
  ∀ a ∈ assignments, Json.fitsSigned a.expiresAt = true

/-- Whether the assignments of an answer end at seconds that fit a word. -/
def Call.AnswerFits : (call : Call) → call.Answer → Prop
  | .assignments _, .ok held => EndingsFit held
  | _, _ => True

/-- Whether a text is that of an entry and is read as this entry. -/
def IsEntry (text : String) : Prop :=
  ∃ entry : CachedPrivileges, entry.encode = text ∧ CachedPrivileges.decode? text = some entry

/-- Whether a call writes only what can be read under the key of an entry. -/
def Call.WritesEntries : Call → Prop
  | .cacheSet key text => ∀ r user org, key = entryKey r user org → IsEntry text
  | _ => True

/-- Whether all that is kept under the keys of entries can be read. -/
def CacheContent.Legible (c : CacheContent) : Prop :=
  ∀ ⦃r user org text⦄, c.find? (entryKey r user org) = some text → IsEntry text

theorem CachedPrivileges.isEntry_encode {c : CachedPrivileges}
    (fits : c.validUntil.all Json.fitsSigned = true) : IsEntry c.encode :=
  ⟨c, rfl, by rw [decode?_encode, if_pos fits]⟩

theorem ActiveRoles.fits {now : Int} {assignments : List RoleAssignment} {active : ActiveRoles}
    (fit : EndingsFit assignments)
    (found : ofAssignments? now assignments = some active) :
    active.validUntil.all Json.fitsSigned = true := by
  unfold ofAssignments? at found
  split at found
  · cases found
  · cases found
    rw [Option.all_eq_true]
    intro ending first
    obtain ⟨listed, -⟩ := List.mem_filter.mp (List.min?_eq_some_iff.mp first).1
    obtain ⟨a, member, rfl⟩ := List.mem_map.mp listed
    exact fit a (List.mem_filter.mp member).1

namespace Resolver

open Attempt

variable {config : ResolverConfig} {now : Int} {user org : Uuid} {actor : Actor}
  {active : ActiveRoles} {p : Privileges}

theorem ensures_cached : (cached now user org).Ensures Call.AnswerFits Call.WritesEntries
    fun _ => True := by
  refine (ensures_call _ trivial).bind fun pointer _ => ?_
  cases pointer with
  | none => exact ensures_pure trivial
  | some roleSet =>
      refine (ensures_call _ trivial).bind fun text _ => ?_
      cases text with
      | none => exact ensures_pure trivial
      | some text =>
          dsimp only
          split <;> exact ensures_pure trivial

theorem ensures_activeRoles : (activeRoles now user).Ensures Call.AnswerFits Call.WritesEntries
    fun active => active.validUntil.all Json.fitsSigned = true := by
  refine (ensures_ask (.assignments user) trivial).bind fun assignments fit => ?_
  split
  · rename_i active found
    exact ensures_pure (ActiveRoles.fits fit found)
  · exact ensures_throw _

theorem ensures_compute (ids : List Uuid) : (compute user org ids).Ensures Call.AnswerFits
    Call.WritesEntries fun _ => True := by
  refine (ensures_call _ trivial).bind fun roles _ =>
    (ensures_call .organizations trivial).bind fun organizations _ => ?_
  split
  · exact ensures_throw _
  · split
    · exact ensures_throw _
    · exact ensures_pure trivial

theorem ensures_store (fits : active.validUntil.all Json.fitsSigned = true) :
    (store user org active p).Ensures Call.AnswerFits Call.WritesEntries fun _ => True := by
  refine (ensures_call _ ?_).bind fun _ _ => (ensures_call _ trivial).bind fun _ _ =>
    (ensures_call _ ?_).bind fun _ _ => (ensures_call _ ?_)
  · intro _ _ _ _
    exact CachedPrivileges.isEntry_encode fits
  · intro _ _ _ same
    exact absurd same.symm entryKey_ne_roleSetsKey
  · intro _ _ _ same
    exact absurd same.symm entryKey_ne_pointerKey

theorem ensures_resolve : (resolve config now actor).Ensures Call.AnswerFits Call.WritesEntries
    fun _ => True := by
  have fresh : (resolveFresh config now actor).Ensures Call.AnswerFits Call.WritesEntries
      fun _ => True := by
    refine ensures_activeRoles.bind fun active fits => (ensures_compute _).bind fun p _ => ?_
    dsimp only
    split
    · exact (ensures_store fits).bind fun _ _ => ensures_pure trivial
    · exact ensures_pure trivial
  rw [resolve]
  split
  · exact ensures_pure trivial
  · split
    · refine ensures_cached.bind fun found _ => ?_
      cases found with
      | none => exact fresh
      | some p => exact ensures_pure trivial
    · exact fresh

theorem ensures_invalidate : (invalidate config user).Ensures Call.AnswerFits Call.WritesEntries
    fun _ => True := by
  have forget : (do
      (Call.cacheDelete (roleSetsKey user)).ask
      (Call.cacheDelete (pointerKey user)).ask : Attempt Unit).Ensures Call.AnswerFits
        Call.WritesEntries fun _ => True :=
    (ensures_call _ trivial).bind fun _ _ => ensures_call _ trivial
  have deleting : ∀ roleSets : List String, Attempt.Ensures Call.AnswerFits Call.WritesEntries
      (fun _ => True) (roleSets.forM fun r => (Call.cacheDeleteAll (entriesStart r user)).ask) := by
    intro roleSets
    induction roleSets with
    | nil => exact ensures_pure trivial
    | cons r others ih => exact (ensures_call _ trivial).bind fun _ _ => ih
  rw [invalidate]
  split
  · refine (ensures_call _ trivial).bind fun index _ => ?_
    cases index with
    | none => exact forget
    | some index => exact (deleting (roleSets index)).bind fun _ _ => forget
  · exact ensures_pure trivial

end Resolver

/-! ## The cache at all times -/

theorem ServiceEvent.ensures_program (config : ResolverConfig) (now : Int) (event : ServiceEvent) :
    (event.program config now).Ensures Call.AnswerFits Call.WritesEntries fun _ => True := by
  cases event with
  | resolve actor => exact Program.Ensures.bind Resolver.ensures_resolve fun _ _ => trivial
  | invalidate user => exact Program.Ensures.bind Resolver.ensures_invalidate fun _ _ => trivial
  | replace source => trivial

namespace ResolverWorld

variable {w : ResolverWorld}

theorem answerFits_answer (fits : EndingsFit w.source.assignments) (call : Call) :
    call.AnswerFits (w.answer call).1 := by
  cases call with
  | assignments user =>
      simp only [answer, answerSource]
      split
      · trivial
      · exact fun a member => fits a (List.mem_filter.mp member).1
  | _ => trivial

theorem legible_answer {call : Call} (writes : call.WritesEntries) (legible : w.cache.Legible) :
    (w.answer call).2.cache.Legible := by
  cases call with
  | assignments | roles | organizations =>
      simp only [answer, answerSource]
      split <;> exact legible
  | cacheGet key =>
      simp only [answer, answerCache]
      split <;> exact legible
  | cacheSet key text =>
      simp only [answer, answerCache]
      split
      · exact legible
      · intro r user org text' found
        rw [SortedMap.find?_insert] at found
        split at found
        · rename_i same
          cases found
          exact writes r user org same.symm
        · exact legible found
  | cacheDelete key =>
      simp only [answer, answerCache]
      split
      · exact legible
      · intro r user org text' found
        rw [SortedMap.find?_erase] at found
        split at found
        · cases found
        · exact legible found
  | cacheDeleteAll start =>
      simp only [answer, answerCache]
      split
      · exact legible
      · intro r user org text' found
        rw [CacheContent.find?_withoutStart] at found
        split at found
        · cases found
        · exact legible found

theorem legible_advance {post : α → Prop} {x : Program α}
    (ensures : x.Ensures Call.AnswerFits Call.WritesEntries post) (legible : w.cache.Legible) :
    (w.advance x).2.cache.Legible := by
  cases x with
  | done result => exact legible
  | ask call next => exact legible_answer ensures.1 legible

theorem ensures_advance {post : α → Prop} {x : Program α}
    (ensures : x.Ensures Call.AnswerFits Call.WritesEntries post)
    (fits : EndingsFit w.source.assignments) :
    (w.advance x).1.Ensures Call.AnswerFits Call.WritesEntries post := by
  cases x with
  | done result => exact ensures
  | ask call next => exact ensures.2 _ (answerFits_answer fits call)

end ResolverWorld

namespace Traffic

variable {config : ResolverConfig} {t : Traffic}

/-- The assignments of the source fit, the entries of the cache can be read, and what is under way
goes on to write such. -/
structure Legible (t : Traffic) : Prop where
  fits : EndingsFit t.world.source.assignments
  entries : t.world.cache.Legible
  ensures : ∀ a ∈ t.begun, a.rest.Ensures Call.AnswerFits Call.WritesEntries fun _ => True

theorem Legible.after {move : Move} (legible : t.Legible)
    (fit : ∀ source, move = .begin (.replace source) → EndingsFit source.assignments) :
    (t.after config move).Legible := by
  cases move with
  | pass seconds => exact ⟨legible.fits, legible.entries, legible.ensures⟩
  | begin event =>
      refine ⟨?_, legible.entries, fun a member => ?_⟩
      · cases event with
        | resolve | invalidate => exact legible.fits
        | replace source => exact fit source rfl
      · rcases List.mem_append.mp member with earlier | new
        · exact legible.ensures a earlier
        · rw [List.mem_singleton.mp new]
          exact event.ensures_program config t.clock
  | proceed i =>
      cases found : t.begun[i]? with
      | none =>
          rw [Traffic.after, found]
          exact legible
      | some a =>
          have ensures := legible.ensures a (List.mem_of_getElem? found)
          rw [after_proceed found]
          refine ⟨?_, ?_, fun a' member => ?_⟩
          · rw [(t.world.advance_frame a.rest).1]
            exact legible.fits
          · exact ResolverWorld.legible_advance ensures legible.entries
          · rcases List.mem_or_eq_of_mem_set member with earlier | rfl
            · exact legible.ensures a' earlier
            · exact ResolverWorld.ensures_advance ensures legible.fits

theorem Legible.run (legible : t.Legible) {moves : List Move}
    (fit : ∀ source, Move.begin (.replace source) ∈ moves → EndingsFit source.assignments) :
    (t.run config moves).Legible := by
  induction moves generalizing t with
  | nil => exact legible
  | cons move moves ih =>
      refine ih (legible.after fun source first => ?_) fun source later => ?_
      · exact fit source (first ▸ List.mem_cons_self)
      · exact fit source (List.mem_cons_of_mem move later)

end Traffic

/-- An entry is read back as it was, as a value and from its text, if the second at which it ends
fits a word. Where members with a default are left out of an entry that can be read, it is read with
the default for them. Whatever calls interleave and whatever fails, all entries that a service has
written to a cache can be read, if the assignments of its source end at seconds that fit a word. -/
theorem entries_read_back :
    (∀ c : CachedPrivileges, c.validUntil.all Json.fitsSigned = true →
      (∀ m, CachedPrivileges.ofJson? m c.toJson = some c) ∧
        CachedPrivileges.decode? c.encode = some c) ∧
    (∀ m members c absent, CachedPrivileges.ofJson? m (.obj members) = some c →
      (∀ j, members.lookup "privileges" = some j → j.isObject = true) →
      absent ⊆ ["bypass", "entityScopes", "validUntil"] →
      CachedPrivileges.ofJson? m (CachedPrivileges.leavingOut absent (.obj members)) =
        some {
          privileges := {
            c.privileges with
            bypass := if "bypass" ∈ absent then false else c.privileges.bypass
            entities := if "entityScopes" ∈ absent then ∅ else c.privileges.entities }
          validUntil := if "validUntil" ∈ absent then none else c.validUntil }) ∧
    ∀ (config : ResolverConfig) (t : Traffic) (moves : List Move), t.world.cache = ∅ →
      t.begun = [] → EndingsFit t.world.source.assignments →
      (∀ source, Move.begin (.replace source) ∈ moves → EndingsFit source.assignments) →
      ∀ r user org text, (t.run config moves).world.cache.find? (entryKey r user org) = some text →
        ∃ entry : CachedPrivileges, entry.encode = text ∧
          CachedPrivileges.decode? text = some entry := by
  refine ⟨fun c fits => ⟨fun m => CachedPrivileges.ofJson?_toJson m fits, ?_⟩,
    fun m members c absent read object optional =>
      CachedPrivileges.ofJson?_leavingOut optional read object, ?_⟩
  · rw [CachedPrivileges.decode?_encode, if_pos fits]
  · intro config t moves empty idle fits fit r user org text found
    have legible : t.Legible := by
      refine ⟨fits, fun r user org text found => ?_, fun a member => ?_⟩
      · rw [empty] at found
        cases found
      · rw [idle] at member
        cases member
    exact (legible.run fit).entries found

namespace Notebook

/-- An entry of the auditor, with an entity named like one of the members. -/
def audit : CachedPrivileges where
  privileges := {
    user := auditor.id
    permissions := .ofList ["letter:list", "note:list"]
    readable := .ofList [headOffice, district]
    writable := ∅
    activeOrg := headOffice
    bypass := true
    entities := .ofList [("bypass", ⟨.ofList [headOffice], ∅⟩)] }
  validUntil := some 5

/-- The auditor is resolved, as far as it goes. -/
def resolving : List Move := .begin (.resolve auditor) :: List.replicate 9 (.proceed 0)

end Notebook

open Notebook in
/-- The entry is read back, also without its bypass and its end, and so is the one that the service
writes. -/
theorem audit_reads_back :
    CachedPrivileges.decode? audit.encode = some audit ∧
      CachedPrivileges.ofJson? .exact
          (CachedPrivileges.leavingOut ["bypass", "validUntil"] audit.toJson) =
        some ⟨{ audit.privileges with bypass := false }, none⟩ ∧
      ∃ text entry,
        ((Traffic.ofSource districts 3).run ⟨.ofNat 1, true⟩ resolving).world.cache.find?
          (entryKey (joinRoleIds [.ofNat 48, .ofNat 49]) auditor.id headOffice) = some text ∧
        CachedPrivileges.decode? text = some entry := by
  obtain ⟨back, omitting, written⟩ := entries_read_back
  obtain ⟨value, text⟩ := back audit rfl
  refine ⟨text, omitting .exact _ audit ["bypass", "validUntil"] (value .exact) ?_ (by decide), ?_⟩
  · intro j found
    have member := SortedMap.find?_ofList (l := [("privileges", audit.privileges.toJson),
      ("validUntil", .int 5)]) (by decide) "privileges"
    cases member.symm.trans found
    rfl
  · have kept : (((Traffic.ofSource districts 3).run ⟨.ofNat 1, true⟩ resolving).world.cache.find?
        (entryKey (joinRoleIds [.ofNat 48, .ofNat 49]) auditor.id headOffice)).isSome = true := by
      decide +kernel
    obtain ⟨text, found⟩ := Option.isSome_iff_exists.mp kept
    obtain ⟨entry, -, read⟩ := written ⟨.ofNat 1, true⟩ (.ofSource districts 3) resolving rfl rfl
      (show ∀ a ∈ districts.assignments, _ by decide +kernel) (by simp [resolving]) _ auditor.id
      headOffice text found
    exact ⟨text, entry, found, read⟩

end ScopedAccess
