import Ail.Storage.Retention

/-!
# Collected stores stay readable

The store is reached by any calls on it and on the object store it
shares with others. Whatever they were, the index only names encoded
envelopes and objects lie under their own hash (`sound_after`); so the
collector's second encoding of a retained envelope gives the id its
object has, and the snapshot is as readable after the collection as it
was before.
-/

namespace Ail.Storage

open Lib GraphStore

variable {Oid Bytes : Type} [DecidableEq Oid] {platform : Platform Oid Bytes}

/-! ## Histories -/

variable {store : GraphStore Oid Bytes}

/-- What happens to a store and to the object store under it. Objects are
also written and deleted past the snapshot store. -/
inductive Call (Oid Bytes : Type) where
  | save (value : SnapshotEnvelope Oid)
  | appendLog (entry : ChangeSetLogEntry Oid)
  | put (bytes : Bytes)
  | deleteSnapshot (id : Oid)
  | deleteObject (id : Oid)
  | collect (policy : RetentionPolicy) (holds : SnapshotHolds Oid) (nowMs : UInt64)

namespace GraphStore

/-- A call that fails changes nothing. -/
def settle {α : Type} (store : GraphStore Oid Bytes) (result : Except StorageError α)
    (next : α → GraphStore Oid Bytes) : GraphStore Oid Bytes :=
  match result with
  | .ok value => next value
  | .error _ => store

variable (platform) in
def answer (store : GraphStore Oid Bytes) : Call Oid Bytes → GraphStore Oid Bytes
  | .save value => store.settle (store.saveSnapshot platform value) (·.1)
  | .appendLog entry => store.settle (store.appendChangesetLog platform entry) (·.1)
  | .put bytes => { store with objects := (store.objects.put platform bytes).1 }
  | .deleteSnapshot id => store.deleteSnapshot id
  | .deleteObject id => { store with objects := store.objects.erase id }
  | .collect policy holds nowMs =>
    store.settle (collectGarbage platform store policy holds nowMs) id

variable (platform) in
def after (calls : List (Call Oid Bytes)) : GraphStore Oid Bytes :=
  calls.foldl (answer platform) empty

omit [DecidableEq Oid] in
theorem settle_induction {α : Type} {P : GraphStore Oid Bytes → Prop}
    {result : Except StorageError α} {next : α → GraphStore Oid Bytes} (hsame : P store)
    (hnext : ∀ value, result = .ok value → P (next value)) : P (store.settle result next) := by
  cases hresult : result with
  | ok value => exact hnext value hresult
  | error failure => exact hsame

end GraphStore

section

variable (hinj : Function.Injective platform.fromBytes) (hround : platform.RoundTrips)
include hinj hround

/-- A collection that succeeds started from a store that can be listed. -/
theorem collected_of_eq_ok {collected : GraphStore Oid Bytes} (sound : store.Sound platform)
    {policy : RetentionPolicy} {holds : SnapshotHolds Oid} {nowMs : UInt64}
    (hgc : collectGarbage platform store policy holds nowMs = .ok collected) :
    ∃ snapshots, store.listSnapshots platform = .ok snapshots ∧
      Collected platform store collected (snapshots.filter (retained policy holds nowMs)) := by
  cases hlist : store.listSnapshots platform with
  | error failure =>
    rw [collectGarbage, gcUnreferenced, hlist] at hgc
    cases hgc
  | ok snapshots =>
    obtain ⟨collected', hgc', hspec⟩ :=
      @collectGarbage_spec _ _ _ _ _ _ policy holds nowMs hinj hround sound hlist
    cases hgc.symm.trans hgc'
    exact ⟨snapshots, rfl, hspec⟩

theorem sound_answer (sound : store.Sound platform) (call : Call Oid Bytes) :
    (store.answer platform call).Sound platform := by
  cases call with
  | save value => exact settle_induction sound fun _ hok => sound.saveSnapshot hok
  | appendLog entry =>
    exact settle_induction sound fun _ hok => sound.appendChangesetLog hok
  | put bytes => exact ⟨sound.addressed.put bytes, sound.indexed⟩
  | deleteSnapshot id => exact sound.eraseAll [id] []
  | deleteObject id => exact sound.eraseAll [] [id]
  | collect policy holds nowMs =>
    refine settle_induction sound fun _ hok => ?_
    obtain ⟨_, -, hspec⟩ := collected_of_eq_ok hinj hround sound hok
    exact hspec.sound

theorem sound_after (calls : List (Call Oid Bytes)) :
    (after platform calls).Sound platform :=
  List.foldlRecOn calls _ sound_empty fun _ sound call _ =>
    sound_answer hinj hround sound call

/-- Every call but the deletion of an object behind the store's back keeps
the objects the index names. -/
theorem complete_answer (sound : store.Sound platform) (complete : store.Complete)
    {call : Call Oid Bytes} (hcall : ∀ id, call ≠ .deleteObject id) :
    (store.answer platform call).Complete := by
  cases call with
  | save value =>
    refine settle_induction complete fun result hok id casId hindex => ?_
    obtain ⟨bytes, -, heq⟩ := bind_eq_ok.1 hok
    cases heq
    refine Objects.mem_put.2 ?_
    by_cases hid : id = value.id
    · subst hid
      rw [AList.lookup_insert] at hindex
      exact .inl (Option.some.inj hindex).symm
    · rw [AList.lookup_insert_ne hid] at hindex
      exact .inr (complete id casId hindex)
  | appendLog entry =>
    refine settle_induction complete fun result hok id casId hindex => ?_
    obtain ⟨bytes, -, heq⟩ := bind_eq_ok.1 hok
    cases heq
    exact Objects.mem_put.2 (.inr (complete id casId hindex))
  | put bytes => exact fun id casId hindex => Objects.mem_put.2 (.inr (complete id casId hindex))
  | deleteSnapshot id =>
    intro other casId hindex
    have hother : (eraseAll [id] store.snapshotIndex).lookup other = some casId := hindex
    rw [lookup_eraseAll] at hother
    split at hother
    · cases hother
    · exact complete other casId hother
  | deleteObject id => exact absurd rfl (hcall id)
  | collect policy holds nowMs =>
    refine settle_induction complete fun collected hok => ?_
    obtain ⟨_, -, hspec⟩ := collected_of_eq_ok hinj hround sound hok
    obtain ⟨listed, hlisted, -⟩ := hspec.listed
    exact (hspec.sound.listSnapshots_ok_iff hinj hround).1 ⟨listed, hlisted⟩

theorem complete_after {calls : List (Call Oid Bytes)} (hcalls : ∀ id, .deleteObject id ∉ calls) :
    (after platform calls).Complete := by
  have hboth : (after platform calls).Sound platform ∧
      (after platform calls).Complete :=
    List.foldlRecOn (motive := fun store : GraphStore Oid Bytes => store.Sound platform ∧
      store.Complete) calls _
      ⟨sound_empty, complete_empty⟩ fun _ hstore call hmem =>
        ⟨sound_answer hinj hround hstore.1 call,
          complete_answer hinj hround hstore.1 hstore.2 fun id heq => hcalls id (heq ▸ hmem)⟩
  exact hboth.2

end

/-! ## Retained history stays readable -/

/-- Of a store that can be listed, and one from which no object was
deleted past it always can, a collection keeps exactly the retained
snapshots, readable as before, with their graphs, and no object that
none of them keeps alive. -/
theorem collectGarbage_keeps_retained (hinj : Function.Injective platform.fromBytes)
    (hround : platform.RoundTrips) (calls : List (Call Oid Bytes)) (policy : RetentionPolicy)
    (holds : SnapshotHolds Oid) (nowMs : UInt64) :
    ((∀ id, .deleteObject id ∉ calls) →
      ∃ snapshots, (GraphStore.after platform calls).listSnapshots platform = .ok snapshots) ∧
    ∀ snapshots, (GraphStore.after platform calls).listSnapshots platform = .ok snapshots →
      ∃ collected listed,
        collectGarbage platform (GraphStore.after platform calls) policy holds nowMs =
          .ok collected ∧
        collected.listSnapshots platform = .ok listed ∧
        listed.Perm (snapshots.filter (retained policy holds nowMs)) ∧
        (∀ envelope ∈ listed,
          collected.loadSnapshot platform envelope.id = .ok (some envelope)) ∧
        (∀ envelope ∈ listed, collected.objects.lookup envelope.graphRootHash =
          (GraphStore.after platform calls).objects.lookup envelope.graphRootHash) ∧
        ∀ id ∈ collected.objects, Live platform listed id := by
  have sound := sound_after hinj hround calls
  refine ⟨fun hcalls => (sound.listSnapshots_ok_iff hinj hround).2
    (complete_after hinj hround hcalls), fun snapshots hlist => ?_⟩
  obtain ⟨collected, hgc, hspec⟩ :=
    @collectGarbage_spec _ _ _ _ _ _ policy holds nowMs hinj hround sound hlist
  obtain ⟨listed, hlisted, hperm⟩ := hspec.listed
  refine ⟨collected, listed, hgc, hlisted, hperm, fun envelope hmem => ?_, fun envelope hmem => ?_,
    fun id hmem => ?_⟩
  · obtain ⟨casId, hindex, hcas, hobject⟩ :=
      (hspec.sound.mem_listSnapshots_iff hinj hround hlisted).1 hmem
    exact hspec.sound.loadSnapshot_eq hinj hround hindex hcas hobject
  · exact hspec.lookup_of_live _ ⟨envelope, hperm.mem_iff.1 hmem, .inr rfl⟩
  · obtain ⟨envelope, hkept, hneeds⟩ := hspec.live_of_mem id hmem
    exact ⟨envelope, hperm.mem_iff.2 hkept, hneeds⟩

/-- A graph and two snapshots of it, the second on top of the first. -/
def twoSnapshots : List (Call Digest Digest) :=
  [.put (.label "graph"),
    .save ⟨.label "genesis", .label "graph", none, none, 0, none, [], []⟩,
    .save ⟨.label "child", .label "graph", some (.label "genesis"), none, 1, none, [], []⟩]

/-- Keeping releases only, the second is collected. -/
theorem collectGarbage_keeps_retained_genesis :
    ∃ collected listed,
      collectGarbage digestPlatform (GraphStore.after digestPlatform twoSnapshots)
        ⟨none, true, true⟩ {} 2 = .ok collected ∧
      collected.listSnapshots digestPlatform = .ok listed ∧
      listed.Perm [⟨.label "genesis", .label "graph", none, none, 0, none, [], []⟩] ∧
      ∀ envelope ∈ listed,
        collected.loadSnapshot digestPlatform envelope.id = .ok (some envelope) := by
  have hkeeps := @collectGarbage_keeps_retained _ _ _ digestPlatform Function.injective_id
    digestPlatform_roundTrips twoSnapshots ⟨none, true, true⟩ {} 2
  obtain ⟨collected, listed, hgc, hlisted, hperm, hload, -, -⟩ := hkeeps.2 _ rfl
  exact ⟨collected, listed, hgc, hlisted, hperm, hload⟩

end Ail.Storage
