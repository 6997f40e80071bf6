import Ail.Cli.Steps
import Ail.Lib.Run

/-!
# `change --apply` against `change` followed by `apply`

`change --apply` is documented as a draft that is applied at once. It is
written separately, and differs in three points: it applies the ops to
the empty graph instead of the head's, it takes the changeset's own base
for the current snapshot id, so that nothing is ever stale, and its
parent is the latest snapshot of any branch.

`EqualsDraftThenApply` is the documented behaviour; `Indifferent` says
that the three points make no difference to this changeset and this
project. The two are equivalent.
-/

namespace Ail.Cli

open Ail.Core Change Verify Storage Lib

variable {Oid : Type} [DecidableEq Oid] (svc : Services Oid) (moment : Moment)
  {graph : SemanticGraph} {snapshotId : SnapshotId} {target : BranchName}
  {snapshots : List (SnapshotEnvelope Oid)}

/-- What is saved is the changeset applied to the graph of the branch it
is saved on, on top of that branch's snapshot. -/
def SavesOnHead (canonical : CanonicalChangeSet) (branch : Option String) (store : Store Oid)
    (save : Save Oid) : Prop :=
  ∃ target base snapshotId graph current, targetBranch store branch = .ok target ∧
    loadCurrentGraphOn svc moment (recordDraft svc moment canonical store) target.name =
      .ok (base, snapshotId) ∧
    apply svc.nodeHash snapshotId canonical base = (.applied, graph) ∧
    currentSnapshotOn moment (recordDraft svc moment canonical store) target.name = .ok current ∧
    save.branch = target.name ∧ save.graph = some graph ∧
    save.envelope.parentId = current.map (·.id)

/-- Immediate application does what `apply` would do on the branch it
saves on, starting from the recorded draft: it saves on the head, it
refuses a stale base, and where `apply` itself can be asked, the two
save the same graph and parent. -/
structure EqualsDraftThenApply (canonical : CanonicalChangeSet) (branch : Option String)
    (store : Store Oid) : Prop where
  saves : ∀ save, (cmdChange svc moment canonical true branch store).2 = .saved save →
    SavesOnHead svc moment canonical branch store save
  refuses : ∀ target base snapshotId, targetBranch store branch = .ok target →
    loadCurrentGraphOn svc moment (recordDraft svc moment canonical store) target.name =
      .ok (base, snapshotId) → canonical.baseSnapshotId ≠ snapshotId →
    (cmdChange svc moment canonical true branch store).2 = .failed (.rebaseRequired snapshotId)
  agrees : ∀ changeId yes policyProfile save applied, targetBranch store branch = .ok store.head →
    svc.ids.ofHex changeId = some (svc.ids.object (.changeset canonical)) →
    (cmdChange svc moment canonical true branch store).2 = .saved save →
    planApply svc moment changeId yes policyProfile (recordDraft svc moment canonical store) =
      .ok applied →
    applied.graph = save.graph ∧ applied.envelope.parentId = save.envelope.parentId

/-- The base is the current snapshot; and if the ops apply to the empty
graph, they give the same on the branch's graph, and the tip of the
branch is the latest snapshot there is. -/
structure Indifferent (canonical : CanonicalChangeSet) (branch : Option String)
    (store : Store Oid) : Prop where
  based : ∀ target base snapshotId, targetBranch store branch = .ok target →
    loadCurrentGraphOn svc moment (recordDraft svc moment canonical store) target.name =
      .ok (base, snapshotId) → canonical.baseSnapshotId = snapshotId
  graph : ∀ target snapshots graph, targetBranch store branch = .ok target →
    (recordDraft svc moment canonical store).listSnapshots moment = .ok snapshots →
    apply svc.nodeHash canonical.baseSnapshotId canonical .empty = (.applied, graph) →
    ∃ base snapshotId,
      loadCurrentGraphOn svc moment (recordDraft svc moment canonical store) target.name =
        .ok (base, snapshotId) ∧
      apply svc.nodeHash canonical.baseSnapshotId canonical base = (.applied, graph) ∧
      ∀ tip, (recordDraft svc moment canonical store).tipSnapshot moment target.name = some tip →
        (latestSnapshot snapshots).map (·.id) = some tip.id

variable {svc moment} {canonical : CanonicalChangeSet} {branch : Option String} {store : Store Oid}

omit [DecidableEq Oid] in
/-- Against its own base a changeset is never stale. -/
theorem appliedGraph_ne_rebaseRequired {failure conflict : String} :
    appliedGraph failure conflict
      (apply svc.nodeHash canonical.baseSnapshotId canonical graph) ≠
        .error (.rebaseRequired snapshotId) := by
  rcases apply_cases svc.nodeHash canonical.baseSnapshotId canonical graph with
    ⟨hbase, -⟩ | ⟨-, reason, happly, -⟩ | ⟨-, result, happly, -⟩
  · exact absurd rfl hbase
  · simp [happly, appliedGraph]
  · simp [happly, appliedGraph]

@[simp]
theorem targetBranch_recordDraft :
    targetBranch (recordDraft svc moment canonical store) branch = targetBranch store branch := by
  cases branch <;> simp [targetBranch]

theorem cmdChange_ne_rebaseRequired (htarget : targetBranch store branch = .ok target)
    (hlist : (recordDraft svc moment canonical store).listSnapshots moment = .ok snapshots) :
    (cmdChange svc moment canonical true branch store).2 ≠
      .failed (.rebaseRequired snapshotId) := by
  simp only [cmdChange, if_true, hlist]
  split
  · rename_i error herror
    rintro heq
    exact appliedGraph_ne_rebaseRequired (Answer.failed.inj heq ▸ herror)
  · simp [htarget, settle]

theorem cmdChange_saves (htarget : targetBranch store branch = .ok target)
    (hlist : (recordDraft svc moment canonical store).listSnapshots moment = .ok snapshots)
    (happly : apply svc.nodeHash canonical.baseSnapshotId canonical .empty = (.applied, graph)) :
    (cmdChange svc moment canonical true branch store).2 =
      .saved (changeSave svc moment canonical snapshots graph target.name) := by
  simp [cmdChange, hlist, happly, appliedGraph, htarget]

theorem listSnapshots_of_loadCurrentGraphOn {current : SemanticGraph × SnapshotId} {name : String}
    (hload : loadCurrentGraphOn svc moment store name = .ok current) :
    ∃ snapshots, store.listSnapshots moment = .ok snapshots ∧
      currentSnapshotOn moment store name =
        .ok ((store.tipSnapshot moment name).or (latestSnapshot snapshots)) := by
  obtain ⟨snapshot, hcurrent, -⟩ := bind_eq_ok.1 hload
  obtain ⟨snapshots, hlist, hsnapshot⟩ := bind_eq_ok.1 hcurrent
  exact ⟨snapshots, hlist, by rw [hcurrent, ← hsnapshot]; rfl⟩

theorem Indifferent.saves (indifferent : Indifferent svc moment canonical branch store)
    {save : Save Oid} (hsaved : (cmdChange svc moment canonical true branch store).2 =
      .saved save) :
    SavesOnHead svc moment canonical branch store save := by
  obtain ⟨_, saved, -⟩ := cmdChange_saved hsaved
  cases saved with
  | @change _ _ snapshots graph target hlist happly htarget =>
    obtain ⟨base, snapshotId, hload, happly', hlatest⟩ :=
      indifferent.graph target snapshots graph htarget hlist happly
    obtain ⟨snapshots', hlist', hcurrent⟩ := listSnapshots_of_loadCurrentGraphOn hload
    cases hlist.symm.trans hlist'
    rw [indifferent.based target base snapshotId htarget hload] at happly'
    refine ⟨target, base, snapshotId, graph, _, htarget, hload, happly', hcurrent, rfl, rfl, ?_⟩
    show (latestSnapshot snapshots).map (·.id) = _
    cases htip : (recordDraft svc moment canonical store).tipSnapshot moment target.name with
    | none => rfl
    | some tip => exact hlatest tip htip

/-- `change --apply` does what `change` and then `apply` would do exactly
when the changeset is indifferent to the shortcuts it takes. -/
theorem immediate_apply_iff (hinj : Function.Injective svc.ids.hash)
    (canonical : CanonicalChangeSet) (branch : Option String) (store : Store Oid) :
    EqualsDraftThenApply svc moment canonical branch store ↔
      Indifferent svc moment canonical branch store := by
  constructor
  · intro equals
    refine ⟨fun target base snapshotId htarget hload => ?_,
      fun target snapshots graph htarget hlist happly => ?_⟩
    · by_contra hstale
      obtain ⟨snapshots, hlist, -⟩ := listSnapshots_of_loadCurrentGraphOn hload
      exact cmdChange_ne_rebaseRequired htarget hlist
        (equals.refuses target base snapshotId htarget hload hstale)
    · obtain ⟨target', base, snapshotId, graph', current, htarget', hload, happly', hcurrent, -,
        hgraph, hparent⟩ := equals.saves _ (cmdChange_saves htarget hlist happly)
      cases htarget.symm.trans htarget'
      obtain rfl : graph = graph' := Option.some.inj hgraph
      obtain ⟨hbase, -⟩ := (apply_eq_applied_iff svc.nodeHash _ _ _ _).1 happly'
      refine ⟨base, snapshotId, hload, by rw [hbase]; exact happly', fun tip htip => ?_⟩
      obtain ⟨snapshots', hlist', hcurrent'⟩ := listSnapshots_of_loadCurrentGraphOn hload
      cases hlist.symm.trans hlist'
      rw [hcurrent', htip] at hcurrent
      rw [← Except.ok.inj hcurrent] at hparent
      exact hparent
  · intro indifferent
    refine ⟨fun save => indifferent.saves, fun target base snapshotId htarget hload hstale => ?_,
      fun changeId yes policyProfile save applied htarget hid hsaved hplan => ?_⟩
    · exact absurd (indifferent.based target base snapshotId htarget hload) hstale
    · obtain ⟨target, base, snapshotId, graph, current, htarget', hload, happly, hcurrent, -,
        hgraph, hparent⟩ := indifferent.saves hsaved
      cases htarget.symm.trans htarget'
      cases planApply_saved hplan with
      | apply _ hcurrent' _ hbase hchangeset happly' =>
        rw [loadChangesetById_eq_some hchangeset, Option.some.injEq] at hid
        obtain rfl := StoredObject.changeset.inj (svc.ids.object_injective hinj hid)
        rw [loadCurrentGraphWithSnapshotId, recordDraft_head] at hbase
        rw [recordDraft_head] at hcurrent'
        cases hbase.symm.trans hload
        cases hcurrent'.symm.trans hcurrent
        cases happly'.symm.trans happly
        exact ⟨hgraph.symm, hparent.symm⟩

/-- Right after `init` the head's graph is empty, and the change is
applied to it either way. -/
theorem immediate_apply_after_init :
    EqualsDraftThenApply (Sample.services []) (Sample.instant 2) Sample.draft none
      (step (Sample.services []) .blank (Sample.instant 1, .init "main")).1 := by
  refine (immediate_apply_iff Digest.ofContent_injective _ _ _).2 ⟨?_, ?_⟩
  · intro target base snapshotId htarget hload
    cases htarget
    cases hload
    rfl
  · intro target snapshots graph htarget hlist happly
    cases htarget
    cases hlist
    refine ⟨.empty, ⟨0⟩, rfl, happly, fun tip htip => ?_⟩
    cases htip
    rfl

/-- A second immediate change drops what the first one created. -/
theorem immediate_apply_drops_node :
    ¬ EqualsDraftThenApply (Sample.services []) (Sample.instant 3) Sample.second none
      (run (step (Sample.services [])) .blank
        [(Sample.instant 1, .init "main"),
          (Sample.instant 2, .change Sample.draft true none)]).1 := by
  intro equals
  obtain ⟨target, base, snapshotId, graph, current, htarget, hload, happly, -, -, hgraph, -⟩ :=
    equals.saves _ rfl
  cases htarget
  cases hload
  cases hgraph
  exact absurd (congrArg (·.2.nodes.length) happly) (by decide)

end Ail.Cli
