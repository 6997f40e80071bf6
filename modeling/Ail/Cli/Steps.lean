import Ail.Cli.Commands
import Ail.Lib.Worklist

/-!
# What one command can do to a project

`Saved` lists the ways in which a command comes to save a snapshot, with
everything it has seen on the way: the store it writes to and the `Save`
it commits there. `step_saved` says that there are no others, and
`step_unsaved` that a command which saves nothing leaves the snapshots,
the index and the refs as they were. Every later argument about a
command is a case analysis on these two.
-/

namespace Ail.Cli

open Ail.Core Change Verify Storage Lib List Store

variable {Oid : Type} [DecidableEq Oid] {svc : Services Oid} {moment : Moment}
  {plan : Except CliError (Save Oid)} {applyImmediately : Bool} {input : Moment × Command}
  {object : StoredObject Oid}

variable (svc moment) in
/-- The snapshots a command can save from `store`. -/
inductive Saved (store : Store Oid) : Command → Store Oid → Save Oid → Prop
  | init (head : BranchName) (hlist : (initFileLayout head store).listSnapshots moment = .ok []) :
      Saved store (.init head.name) (initFileLayout head store) (genesisSave svc moment head.name)
  | change {canonical : CanonicalChangeSet} {branch : Option String}
      {snapshots : List (SnapshotEnvelope Oid)} {graph : SemanticGraph} {target : BranchName}
      (hlist : (recordDraft svc moment canonical store).listSnapshots moment = .ok snapshots)
      (happly : apply svc.nodeHash canonical.baseSnapshotId canonical .empty = (.applied, graph))
      (htarget : targetBranch store branch = .ok target) :
      Saved store (.change canonical true branch) (recordDraft svc moment canonical store)
        (changeSave svc moment canonical snapshots graph target.name)
  | apply {changeId : String} {yes : Bool} {policyProfile : Option String} {changeOid : Oid}
      {current : Option (SnapshotEnvelope Oid)} {reportHash : Oid} {base graph : SemanticGraph}
      {snapshotId : SnapshotId} {canonical : CanonicalChangeSet}
      (hid : svc.ids.ofHex changeId = some changeOid)
      (hcurrent : currentSnapshotOn moment store store.head.name = .ok current)
      (hgate : verificationGate svc store changeId (policyProfile.getD "dev") = .ok reportHash)
      (hbase : loadCurrentGraphWithSnapshotId svc moment store = .ok (base, snapshotId))
      (hload : store.loadChangesetById svc.ids changeId = .ok (some canonical))
      (happly : Change.apply svc.nodeHash snapshotId canonical base = (.applied, graph)) :
      Saved store (.apply changeId yes policyProfile) store
        (applySave svc moment changeId changeOid current reportHash graph store.head.name)
  | rollbackTo {snapshotId : String} {changeId : Option String} {oid : Oid}
      {snapshots : List (SnapshotEnvelope Oid)} {target : SnapshotEnvelope Oid}
      (hlist : store.listSnapshots moment = .ok snapshots)
      (hid : svc.ids.ofHex snapshotId = some oid)
      (htarget : store.findSnapshot moment oid = some target) :
      Saved store (.rollback (some snapshotId) changeId) store
        (rollbackSave svc moment snapshots (rollbackToLabel snapshotId) none target.graphRootHash
          store.head.name)
  | rollbackToEmpty {snapshotId : String} {changeId : Option String} {oid : Oid}
      {snapshots : List (SnapshotEnvelope Oid)}
      (hlist : store.listSnapshots moment = .ok snapshots)
      (hid : svc.ids.ofHex snapshotId = some oid)
      (htarget : store.findSnapshot moment oid = none) :
      Saved store (.rollback (some snapshotId) changeId) store
        (rollbackSave svc moment snapshots (rollbackToLabel snapshotId) (some .empty)
          (svc.ids.object (.graph .empty)) store.head.name)
  | rollbackChange {changeId : String} {changeOid : Oid} {snapshots : List (SnapshotEnvelope Oid)}
      {target : SnapshotEnvelope Oid}
      (hlist : store.listSnapshots moment = .ok snapshots)
      (hid : svc.ids.ofHex changeId = some changeOid)
      (htarget : rollbackTarget snapshots changeOid = some target) :
      Saved store (.rollback none (some changeId)) store
        (rollbackSave svc moment snapshots (rollbackChangeLabel changeId) none
          target.graphRootHash store.head.name)
  | rebase {branch : String} {graph : SemanticGraph}
      (hgraph : rebasedGraph svc moment branch store = .ok graph) :
      Saved store (.rebase branch none) store
        (mergedSave svc moment (rebaseLabel svc branch graph) graph
          ((store.headSnapshot moment).map (·.id)) store.head.name)
  | merge {branch : String} {intoTarget : Option String} {snapshot : SnapshotEnvelope Oid}
      {graph : SemanticGraph}
      (htarget : mergeTarget moment (intoTarget.getD store.head.name) store = .ok snapshot)
      (hgraph : mergedGraph svc moment branch snapshot store = .ok graph) :
      Saved store (.merge branch intoTarget) store
        (mergedSave svc moment (mergeLabel branch (intoTarget.getD store.head.name)) graph
          (some snapshot.id) store.head.name)

theorem appliedGraph_eq_ok {failure conflict : String} {outcome : ChangeSetOutcome × SemanticGraph}
    {graph : SemanticGraph} :
    appliedGraph failure conflict outcome = .ok graph ↔ outcome = (.applied, graph) := by
  rcases outcome with ⟨_ | _ | _ | _, result⟩ <;> simp [appliedGraph]

theorem validateBranchName_eq_ok {name : String} {branch : BranchName}
    (hok : validateBranchName name = .ok branch) : branch.name = name := by
  unfold validateBranchName at hok
  split at hok
  · exact Except.ok.inj hok ▸ rfl
  · cases hok

variable {store : Store Oid} {save : Save Oid}

@[simp] theorem settle_saved :
    (settle svc store plan).2 = .saved save ↔ plan = .ok save := by
  cases plan <;> simp [settle]

theorem settle_ok (hplan : plan = .ok save) :
    (settle svc store plan).1 = save.commit svc store := by
  rw [hplan]
  rfl

@[simp] theorem recordDraft_head (canonical : CanonicalChangeSet) (store : Store Oid) :
    (recordDraft svc moment canonical store).head = store.head := by
  simp [recordDraft]

variable {canonical : CanonicalChangeSet} {changeId profile branch : String}

theorem loadChangesetById_eq_some
    (hload : store.loadChangesetById svc.ids changeId = .ok (some canonical)) :
    svc.ids.ofHex changeId = some (svc.ids.object (.changeset canonical)) := by
  obtain ⟨id, hid, hget⟩ := loadChangesetById_eq_ok_iff.1 hload
  rw [hid, (get_eq_some hget).2]

/-- The gate lets the hash in the sidecar pass, if the profile there is
the one asked for and the hash that of a report. -/
theorem verificationGate_eq_ok {hash : Oid}
    (hgate : verificationGate svc store changeId profile = .ok hash) :
    ∃ recorded, store.reports.read changeId = some (hash, recorded) ∧
      sidecarProfile recorded = profile ∧
      ∃ report profile, hash = svc.ids.object (.report report profile) := by
  obtain ⟨loaded, hload, hgate⟩ := bind_eq_ok.1 hgate
  cases loaded with
  | none => cases hgate
  | some loaded =>
    obtain ⟨report, loadedHash, verifiedProfile⟩ := loaded
    have hprofile : verifiedProfile = profile ∧ loadedHash = hash := by
      by_cases heq : verifiedProfile = profile
      · simp only [heq, ne_eq, not_true_eq_false, if_false] at hgate
        refine ⟨heq, ?_⟩
        split at hgate
        · cases hgate
        · cases hgate
        · exact Except.ok.inj hgate
      · simp [heq] at hgate
    obtain ⟨rfl, rfl⟩ := hprofile
    unfold loadVerificationReportByChangeId at hload
    cases hread : store.reports.read changeId with
    | none => simp [hread] at hload
    | some sidecar =>
      obtain ⟨hash, recorded⟩ := sidecar
      cases hget : store.get svc.ids hash with
      | none => simp [hread, hget] at hload
      | some object =>
        cases object with
        | report stored storedProfile =>
          simp only [hread, hget, Except.ok.injEq, Option.some.injEq, Prod.mk.injEq] at hload
          obtain ⟨-, rfl, rfl⟩ := hload
          exact ⟨recorded, rfl, rfl, stored, storedProfile, (get_eq_some hget).2.symm⟩
        | _ => simp [hread, hget] at hload

theorem planApply_saved {yes : Bool} {policyProfile : Option String}
    (hplan : planApply svc moment changeId yes policyProfile store = .ok save) :
    Saved svc moment store (.apply changeId yes policyProfile) store save := by
  unfold planApply at hplan
  split at hplan
  · cases hplan
  · rename_i changeOid hid
    obtain ⟨current, hcurrent, hplan⟩ := bind_eq_ok.1 hplan
    obtain ⟨-, -, hplan⟩ := bind_eq_ok.1 hplan
    obtain ⟨reportHash, hgate, hplan⟩ := bind_eq_ok.1 hplan
    obtain ⟨⟨base, snapshotId⟩, hbase, hplan⟩ := bind_eq_ok.1 hplan
    obtain ⟨canonical?, hload, hplan⟩ := bind_eq_ok.1 hplan
    cases canonical? with
    | none => cases hplan
    | some canonical =>
      obtain ⟨graph, hgraph, hplan⟩ := bind_eq_ok.1 hplan
      rw [← Except.ok.inj hplan]
      exact .apply hid hcurrent hgate hbase hload (appliedGraph_eq_ok.1 hgraph)

theorem planRollback_saved {toSnapshot changeId : Option String}
    (hplan : planRollback svc moment toSnapshot changeId store = .ok save) :
    Saved svc moment store (.rollback toSnapshot changeId) store save := by
  obtain ⟨snapshots, hlist, hplan⟩ := bind_eq_ok.1 hplan
  rcases toSnapshot with _ | snapshotId
  · rcases changeId with _ | changeId
    · cases hplan
    · cases hid : svc.ids.ofHex changeId with
      | none => simp [hid] at hplan
      | some changeOid =>
        cases htarget : rollbackTarget snapshots changeOid with
        | none => simp [hid, htarget] at hplan
        | some target =>
          simp only [hid, htarget] at hplan
          rw [← Except.ok.inj hplan]
          exact .rollbackChange hlist hid htarget
  · cases hid : svc.ids.ofHex snapshotId with
    | none => simp [hid] at hplan
    | some oid =>
      cases htarget : store.findSnapshot moment oid with
      | none =>
        simp only [hid, htarget] at hplan
        rw [← Except.ok.inj hplan]
        exact .rollbackToEmpty hlist hid htarget
      | some target =>
        simp only [hid, htarget] at hplan
        rw [← Except.ok.inj hplan]
        exact .rollbackTo hlist hid htarget

theorem planMerge_saved {intoTarget : Option String}
    (hplan : planMerge svc moment branch intoTarget store = .ok save) :
    Saved svc moment store (.merge branch intoTarget) store save := by
  obtain ⟨snapshot, htarget, hplan⟩ := bind_eq_ok.1 hplan
  obtain ⟨graph, hgraph, hplan⟩ := bind_eq_ok.1 hplan
  rw [← Except.ok.inj hplan]
  exact .merge htarget hgraph

theorem planRebase_saved (hplan : planRebase svc moment branch store = .ok save) :
    Saved svc moment store (.rebase branch none) store save := by
  obtain ⟨graph, hgraph, hplan⟩ := bind_eq_ok.1 hplan
  rw [← Except.ok.inj hplan]
  exact .rebase hgraph

theorem cmdInit_saved (hsaved : (cmdInit svc moment branch store).2 = .saved save) :
    ∃ target, Saved svc moment store (.init branch) target save ∧
      (cmdInit svc moment branch store).1 = save.commit svc target := by
  unfold cmdInit at hsaved ⊢
  cases hhead : validateBranchName branch with
  | error error => simp [hhead] at hsaved
  | ok head =>
    obtain rfl := validateBranchName_eq_ok hhead
    cases hlist : (initFileLayout head store).listSnapshots moment with
    | error error => simp [hhead, hlist] at hsaved
    | ok snapshots =>
      cases snapshots with
      | cons => simp [hhead, hlist] at hsaved
      | nil =>
        simp only [hhead, hlist, settle_saved, Except.ok.injEq] at hsaved
        subst hsaved
        exact ⟨_, .init head hlist, by simp [hlist, settle]⟩

variable {branch : Option String}

theorem cmdChange_saved
    (hsaved : (cmdChange svc moment canonical applyImmediately branch store).2 = .saved save) :
    ∃ target, Saved svc moment store (.change canonical applyImmediately branch) target save ∧
      (cmdChange svc moment canonical applyImmediately branch store).1 =
        save.commit svc target := by
  unfold cmdChange at hsaved ⊢
  cases applyImmediately with
  | false => simp at hsaved
  | true =>
    cases hlist : (recordDraft svc moment canonical store).listSnapshots moment with
    | error error => simp [hlist] at hsaved
    | ok snapshots =>
      cases hgraph : appliedGraph "change apply failed: " "Change conflict: "
          (apply svc.nodeHash canonical.baseSnapshotId canonical .empty) with
      | error error => simp [hlist, hgraph] at hsaved
      | ok graph =>
        cases htarget : targetBranch (recordDraft svc moment canonical store) branch with
        | error error => simp [hlist, hgraph, htarget] at hsaved
        | ok target =>
          simp only [hlist, hgraph, htarget, if_true, settle_saved, Except.ok.injEq] at hsaved
          subst hsaved
          have htarget' : targetBranch store branch = .ok target := by
            cases branch with
            | none => simpa [targetBranch] using htarget
            | some branch => exact htarget
          exact ⟨_, .change hlist (appliedGraph_eq_ok.1 hgraph) htarget',
            by simp [hlist, htarget, settle]⟩

/-- A command saves a snapshot in one of the ways `Saved` lists. -/
theorem step_saved (hsaved : (step svc store input).2 = .saved save) :
    ∃ target, Saved svc input.1 store input.2 target save ∧
      (step svc store input).1 = save.commit svc target := by
  rcases input with ⟨moment, command⟩
  cases command with
  | init branch => exact cmdInit_saved hsaved
  | change canonical applyImmediately branch => exact cmdChange_saved hsaved
  | verify changeId profile solver =>
    simp only [step, cmdVerify] at hsaved
    split at hsaved
    · cases hsaved
    · split at hsaved
      · cases hsaved
      · split at hsaved <;> exact nomatch hsaved
  | apply changeId yes policyProfile =>
    have hplan := settle_saved.1 hsaved
    exact ⟨store, planApply_saved hplan, settle_ok hplan⟩
  | rollback toSnapshot changeId =>
    have hplan := settle_saved.1 hsaved
    exact ⟨store, planRollback_saved hplan, settle_ok hplan⟩
  | rebase branch onto =>
    cases onto with
    | none =>
      have hplan := settle_saved.1 hsaved
      exact ⟨store, planRebase_saved hplan, settle_ok hplan⟩
    | some onto =>
      simp only [step, cmdRebase] at hsaved
      split at hsaved
      · cases hsaved
      · split at hsaved <;> exact nomatch hsaved
  | merge branch intoTarget =>
    have hplan := settle_saved.1 hsaved
    exact ⟨store, planMerge_saved hplan, settle_ok hplan⟩
  | gc => cases hsaved

/-! ## What a saved snapshot leaves in the store -/

namespace Save

@[simp] theorem commit_refs : (save.commit svc store).refs =
    store.refs.atomicWrite save.branch (some save.envelope.id) := by
  unfold commit
  cases save.graph <;>
    simp [saveSnapshotOnBranch, updateSnapshotIndex, writeObjectRef]

@[simp] theorem commit_reports : (save.commit svc store).reports = store.reports := by
  unfold commit
  cases save.graph <;>
    simp [saveSnapshotOnBranch, updateSnapshotIndex, writeObjectRef]

theorem mem_objects_commit (hinj : Function.Injective svc.ids.hash) :
    object ∈ (save.commit svc store).objects ↔ object ∈ store.objects ∨
      object = .snapshot save.envelope ∨ ∃ graph, save.graph = some graph ∧
        object = .graph graph := by
  unfold commit
  cases hgraph : save.graph with
  | none =>
    simp [saveSnapshotOnBranch, updateSnapshotIndex, writeObjectRef,
      mem_put hinj]
  | some graph =>
    simp only [saveSnapshotOnBranch, updateSnapshotIndex, writeObjectRef,
      mem_put hinj, Option.some.injEq, exists_eq_left', or_assoc]
    exact or_congr_right or_comm

theorem mem_snapshots_commit (hinj : Function.Injective svc.ids.hash)
    {envelope : SnapshotEnvelope Oid} :
    envelope ∈ (save.commit svc store).snapshots ↔
      envelope ∈ store.snapshots ∨ envelope = save.envelope := by
  simp [mem_objects_commit hinj]

/-- Every id indexed before stays indexed, and the new one is added. -/
theorem mem_index_commit {id : Oid} :
    id ∈ (save.commit svc store).index.map (·.id) ↔
      id ∈ store.index.map (·.id) ∨ id = save.envelope.id := by
  have hindex : (save.commit svc store).index =
      (store.updateSnapshotIndex save.envelope).index := by
    unfold commit
    cases save.graph <;>
      simp [saveSnapshotOnBranch, updateSnapshotIndex, writeObjectRef]
  have hsort : ∀ entries : List (SnapshotIndexEntry Oid),
      id ∈ (entries.insertionSort fun first second => first.createdAt ≤ second.createdAt).map
        (·.id) ↔ id ∈ entries.map (·.id) :=
    fun entries => ((perm_insertionSort _ entries).map _).mem_iff
  rw [hindex, updateSnapshotIndex, hsort]
  split
  · rename_i hany
    obtain ⟨known, hmem, hid⟩ := any_eq_true.1 hany
    rw [map_replaceF]
    · refine ⟨Or.inl, fun hor => hor.elim (fun hold => hold) ?_⟩
      rintro rfl
      exact mem_map.2 ⟨known, hmem, of_decide_eq_true hid⟩
    · intro value value' hupdate
      split at hupdate
      · rename_i heq
        exact Option.some.inj hupdate ▸ heq.symm
      · cases hupdate
  · simp

end Save

/-! ## Commands that save nothing -/

/-- The history is the same; other objects may have been added. -/
structure Untouched (before after : Store Oid) : Prop where
  refs : after.refs = before.refs
  index : after.index = before.index
  snapshots : after.snapshots = before.snapshots

omit [DecidableEq Oid] in
theorem Untouched.refl (store : Store Oid) : Untouched store store := ⟨rfl, rfl, rfl⟩

theorem Untouched.put {before after : Store Oid} (same : Untouched before after)
    (hother : asSnapshot object = none) : Untouched before (after.put svc.ids object) := by
  refine ⟨by simp [same.refs], by simp [same.index], ?_⟩
  rw [← same.snapshots]
  unfold Store.put
  split
  · rfl
  · simp [Store.snapshots, hother]

theorem untouched_recordDraft (canonical : CanonicalChangeSet) (store : Store Oid) :
    Untouched store (recordDraft svc moment canonical store) :=
  ((Untouched.refl store).put rfl).put rfl

theorem untouched_cmdChange
    (hnot : ∀ save, (cmdChange svc moment canonical applyImmediately branch store).2 ≠
      .saved save) :
    Untouched store (cmdChange svc moment canonical applyImmediately branch store).1 := by
  have hdraft : Untouched store (recordDraft svc moment canonical store) :=
    untouched_recordDraft canonical store
  unfold cmdChange at hnot ⊢
  dsimp only at hnot ⊢
  split
  · split
    · exact hdraft
    · split
      · exact hdraft
      · split
        · exact hdraft.put rfl
        · rename_i hsnapshots _ _ hgraph _ _ htarget
          simp [*] at hnot
  · exact hdraft

theorem untouched_cmdVerify {solver : String} :
    Untouched store (cmdVerify svc moment changeId profile solver store).1 := by
  unfold cmdVerify
  split
  · exact .refl store
  · split
    · exact .refl store
    · split
      · exact .refl store
      · rename_i graph base _ _ solver _
        have same : Untouched store (store.put svc.ids
            (.report (svc.runWithChangeset solver profile graph base) profile)) :=
          (Untouched.refl store).put rfl
        exact ⟨same.refs, same.index, same.snapshots⟩

/-- A command that saves no snapshot leaves the history alone, but for
garbage collection and for the ref file `init` may create. -/
theorem step_unsaved (hnot : ∀ save, (step svc store input).2 ≠ .saved save) :
    input.2 = .gc ∨
      (∃ head, input.2 = .init head.name ∧ (step svc store input).1 = initFileLayout head store) ∨
      Untouched store (step svc store input).1 := by
  rcases input with ⟨moment, command⟩
  have hsettle : ∀ {plan : Except CliError (Save Oid)},
      (∀ save, (settle svc store plan).2 ≠ .saved save) → (settle svc store plan).1 = store := by
    intro plan hnot
    cases plan with
    | ok save => exact absurd rfl (hnot save)
    | error error => rfl
  cases command with
  | init branch =>
    simp only [step, cmdInit] at hnot ⊢
    cases hhead : validateBranchName branch with
    | error error => exact .inr (.inr (.refl store))
    | ok head =>
      obtain rfl := validateBranchName_eq_ok hhead
      refine .inr (.inl ⟨head, rfl, ?_⟩)
      cases hlist : (initFileLayout head store).listSnapshots moment with
      | error error => simp [hlist]
      | ok snapshots =>
        cases snapshots with
        | cons => simp [hlist]
        | nil => simp [hhead, hlist] at hnot
  | change canonical applyImmediately branch => exact .inr (.inr (untouched_cmdChange hnot))
  | verify changeId profile solver => exact .inr (.inr untouched_cmdVerify)
  | apply _ _ _ | rollback _ _ | merge _ _ =>
    exact .inr (.inr (by rw [step, hsettle hnot]; exact .refl store))
  | rebase branch onto =>
    refine .inr (.inr ?_)
    cases onto with
    | none => exact (hsettle hnot).symm ▸ .refl store
    | some onto =>
      simp only [step, cmdRebase]
      split
      · exact .refl store
      · split <;> exact .refl store
  | gc => exact .inl rfl

/-! ## The fuel of the parent chain -/

/-- Each round sees one more stored id, so any two amounts of fuel above
the number of ids not seen yet give the same answer. -/
theorem parentDepth_fuel {fuel fuel' : Nat} {seen : List Oid} {current : SnapshotEnvelope Oid}
    {depth : UInt64} (hfuel : ((store.snapshots.map (·.id)).toFinset \ seen.toFinset).card < fuel)
    (hfuel' : ((store.snapshots.map (·.id)).toFinset \ seen.toFinset).card < fuel') :
    parentDepth svc moment store fuel seen current depth =
      parentDepth svc moment store fuel' seen current depth := by
  induction fuel generalizing fuel' seen current depth with
  | zero => exact absurd hfuel (Nat.not_lt_zero _)
  | succ fuel ih =>
    cases fuel' with
    | zero => exact absurd hfuel' (Nat.not_lt_zero _)
    | succ fuel' =>
      rw [parentDepth, parentDepth]
      cases current.parentId with
      | none => rfl
      | some parentId =>
        by_cases hseen : parentId ∈ seen
        · simp [hseen]
        · cases hfind : store.findSnapshot moment parentId with
          | none => simp [hfind]
          | some parent =>
            obtain ⟨hmem, hid⟩ := findSnapshot_eq_some hfind
            have hstored : parentId ∈ (store.snapshots.map (·.id)).toFinset :=
              mem_toFinset.2 (mem_map.2 ⟨parent, hmem, hid⟩)
            have hless := card_sdiff_lt hstored hseen (mem_append_right seen
              (mem_singleton_self parentId)) (subset_append_left seen _)
            simp only [hseen, hfind]
            exact ih (by omega) (by omega)

/-- The fuel of `snapshotIdFromParentChain` is enough. -/
theorem snapshotIdFromParentChain_eq (snapshot : SnapshotEnvelope Oid) {fuel : Nat}
    (hfuel : store.objects.length < fuel) :
    snapshotIdFromParentChain svc moment store snapshot =
      (parentDepth svc moment store fuel [snapshot.id] snapshot 0).map SnapshotId.mk := by
  have hcount : ((store.snapshots.map (·.id)).toFinset \ [snapshot.id].toFinset).card ≤
      store.objects.length :=
    calc _ ≤ (store.snapshots.map (·.id)).toFinset.card := Finset.card_le_card Finset.sdiff_subset
      _ ≤ (store.snapshots.map (·.id)).length := toFinset_card_le _
      _ ≤ store.objects.length := by
        rw [length_map]
        exact length_filterMap_le asSnapshot store.objects
  rw [snapshotIdFromParentChain,
    parentDepth_fuel (Nat.lt_succ_of_le hcount) (Nat.lt_of_le_of_lt hcount hfuel)]

end Ail.Cli
