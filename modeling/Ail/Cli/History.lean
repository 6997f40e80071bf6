import Ail.Cli.Steps
import Ail.Lib.Lineage
import Ail.Lib.Run

/-!
# The history of a project

When is the history of a project append-only: every snapshot under a new
id, on top of the tip of the branch it advances, with all other branches
left alone? Not for every sequence of commands. The id of a snapshot is
the hash of a text made from the command's arguments, so a command given
twice saves two snapshots under one id; the parent is taken from four
different notions of the current snapshot; `merge --into` advances the
current branch instead; and the ref file of a branch whose name is that
of a temporary file is overwritten.

`Orderly` says of one command that it runs into none of these, as a
condition on the store before it. The runs of orderly commands are the
append-only ones, and in these a history is what it is kept for: parent
chains without cycles, heads that stay ancestors of their branch, and ids
that keep their snapshot.
-/

namespace Ail.Cli

open Ail.Core Change Verify Storage Lib Relation List Store

variable {Oid : Type} [DecidableEq Oid] {after : Store Oid} {answer : Answer Oid}
  {command : Command} {inputs : List (Moment × Command)}

/-! ## What append-only means -/

/-- The snapshots saved along a log, oldest first. -/
def savedIn (log : List ((Moment × Command) × Answer Oid)) : List (Save Oid) :=
  log.filterMap fun exchange =>
    match exchange.2 with
    | .saved save => some save
    | _ => none

/-- Their ids, each with the parent it names. -/
def lineageOf (log : List ((Moment × Command) × Answer Oid)) : List (Oid × Option Oid) :=
  (savedIn log).map fun save => (save.envelope.id, save.envelope.parentId)

/-- The branch a command is to advance. -/
def advancedBranch (store : Store Oid) : Command → String
  | .init branch => branch
  | .change _ _ branch => branch.getD store.head.name
  | .merge _ intoTarget => intoTarget.getD store.head.name
  | _ => store.head.name

variable (svc : Services Oid)

/-- What a command does to the history, with `log` the exchanges before
it: a snapshot it saves is new, sits on the head of the branch to be
advanced and becomes its head; no other ref changes. -/
structure Appended (store : Store Oid) (log : List ((Moment × Command) × Answer Oid))
    (input : Moment × Command) : Prop where
  fresh : ∀ save, (step svc store input).2 = .saved save →
    save.envelope.id ∉ (lineageOf log).map (·.1)
  parent : ∀ save, (step svc store input).2 = .saved save →
    save.envelope.parentId = store.readBranchRef (advancedBranch store input.2)
  advances : ∀ save, (step svc store input).2 = .saved save →
    (step svc store input).1.readBranchRef (advancedBranch store input.2) = some save.envelope.id
  others : ∀ branch,
    (branch = advancedBranch store input.2 → ∀ save, (step svc store input).2 ≠ .saved save) →
    (step svc store input).1.readBranchRef branch = store.readBranchRef branch

/-- The history a list of commands leaves, starting before the first
`init`. -/
structure AppendOnly (inputs : List (Moment × Command)) : Prop where
  appended : ∀ earlier input later, inputs = earlier ++ input :: later →
    Appended svc (run (step svc) .blank earlier).1 (run (step svc) .blank earlier).2 input
  acyclic : ∀ id, ¬ TransGen (ParentOf (lineageOf (run (step svc) .blank inputs).2)) id id
  ancestors : ∀ earlier later, inputs = earlier ++ later → ∀ branch id,
    (run (step svc) .blank earlier).1.readBranchRef branch = some id →
    ∃ tip, (run (step svc) .blank inputs).1.readBranchRef branch = some tip ∧
      ReflTransGen (ParentOf (lineageOf (run (step svc) .blank inputs).2)) tip id
  loads : ∀ save ∈ savedIn (run (step svc) .blank inputs).2, ∀ moment,
    (run (step svc) .blank inputs).1.findSnapshot moment save.envelope.id = some save.envelope

/-! ## Commands that keep to it -/

/-- No other branch is called like the temporary file of this one. -/
def Undisturbed (store : Store Oid) (branch : String) : Prop :=
  temporaryName branch = branch ∨ store.readBranchRef (temporaryName branch) = none

/-- No snapshot is stored under the id made from a label. -/
def Unused (store : Store Oid) (label : String) : Prop :=
  ∀ envelope ∈ store.snapshots, envelope.id ≠ svc.ids.label label

instance (store : Store Oid) (label : String) : Decidable (Unused svc store label) :=
  inferInstanceAs (Decidable (∀ envelope ∈ store.snapshots, _))

/-- The last snapshot of the index is the head of the current branch. -/
def LastIsHead (moment : Moment) (store : Store Oid) : Prop :=
  ∀ snapshots, store.listSnapshots moment = .ok snapshots →
    snapshots.getLast?.map (·.id) = store.readBranchRef store.head.name

/-- The id the command will use is free, and what it takes for the
parent is the head of the branch to be advanced. -/
def OnTop (moment : Moment) (store : Store Oid) : Command → Prop
  | .change canonical _ branch =>
    Unused svc store (changeLabel svc canonical) ∧
      ∀ snapshots, store.listSnapshots moment = .ok snapshots →
        (latestSnapshot snapshots).map (·.id) =
          store.readBranchRef (branch.getD store.head.name)
  | .apply changeId _ _ =>
    Unused svc store (applyLabel changeId) ∧
      (store.readBranchRef store.head.name = none → store.index = [])
  | .rollback (some snapshotId) _ =>
    Unused svc store (rollbackToLabel snapshotId) ∧ LastIsHead moment store
  | .rollback none (some changeId) =>
    Unused svc store (rollbackChangeLabel changeId) ∧ LastIsHead moment store
  | .rebase branch _ =>
    ∀ graph, rebasedGraph svc moment branch store = .ok graph →
      Unused svc store (rebaseLabel svc branch graph)
  | .merge branch intoTarget =>
    intoTarget.getD store.head.name = store.head.name ∧
      Unused svc store (mergeLabel branch store.head.name)
  | _ => True

/-- The command is none of those that break the history. -/
structure Orderly (store : Store Oid) (input : Moment × Command) : Prop where
  notGc : input.2 ≠ .gc
  creates : ∀ head : BranchName, input.2 = .init head.name → store.refs.read head.name = none →
    Undisturbed store head.name
  saves : ∀ save, (step svc store input).2 = .saved save →
    Undisturbed store (advancedBranch store input.2) ∧ OnTop svc input.1 store input.2

/-! ## Refs and logs -/

variable {save : Save Oid} {input : Moment × Command} {svc : Services Oid} {head : BranchName}
  {log : List ((Moment × Command) × Answer Oid)}

section

omit [DecidableEq Oid]

theorem readBranchRef_writeObjectRef {store : Store Oid} {branch : String}
    (hund : Undisturbed store branch) (id : Option Oid) (other : String) :
    (store.writeObjectRef branch id).readBranchRef other =
      if other = branch then id else store.readBranchRef other := by
  unfold writeObjectRef readBranchRef
  by_cases hself : other = branch
  · simp [hself]
  · rw [if_neg hself]
    by_cases htmp : other = temporaryName branch
    · subst htmp
      rcases hund with hsame | hnone
      · exact absurd hsame hself
      · rw [Directory.read_atomicWrite_temporaryName _ _ hself]
        exact hnone.symm
    · rw [Directory.read_atomicWrite_of_ne _ _ hself htmp]

/-- The same snapshots, index and heads. -/
structure SameHistory (before after : Store Oid) : Prop where
  refs : ∀ branch, after.readBranchRef branch = before.readBranchRef branch
  index : after.index = before.index
  snapshots : after.snapshots = before.snapshots

theorem Untouched.sameHistory {before : Store Oid} (same : Untouched before after) :
    SameHistory before after :=
  ⟨fun _ => by rw [readBranchRef, same.refs, readBranchRef], same.index, same.snapshots⟩

/-- Checking a branch out creates at most an empty ref file. -/
theorem sameHistory_initFileLayout {store : Store Oid}
    (hcreates : store.refs.read head.name = none → Undisturbed store head.name) :
    SameHistory store (initFileLayout head store) := by
  unfold initFileLayout
  dsimp only
  split
  · rename_i hnone
    have hnone := Option.isNone_iff_eq_none.1 hnone
    refine ⟨fun branch => ?_, rfl, rfl⟩
    have hwrite := @readBranchRef_writeObjectRef Oid { store with head } head.name
      (hcreates hnone) none branch
    refine hwrite.trans ?_
    split
    · rename_i heq
      simp [heq, readBranchRef, hnone]
    · rfl
  · exact ⟨fun _ => rfl, rfl, rfl⟩

theorem savedIn_concat_saved (hsaved : answer = .saved save) :
    savedIn (log ++ [(input, answer)]) = savedIn log ++ [save] := by
  simp [savedIn, hsaved]

theorem lineageOf_concat_saved (hsaved : answer = .saved save) :
    lineageOf (log ++ [(input, answer)]) =
      lineageOf log ++ [(save.envelope.id, save.envelope.parentId)] := by
  simp [lineageOf, savedIn_concat_saved hsaved]

theorem savedIn_concat_unsaved (hnot : ∀ save, answer ≠ .saved save) :
    savedIn (log ++ [(input, answer)]) = savedIn log := by
  cases answer with
  | saved save => exact absurd rfl (hnot save)
  | _ => simp [savedIn]

end

theorem Save.commit_readBranchRef {store : Store Oid} (hund : Undisturbed store save.branch)
    (other : String) :
    (save.commit svc store).readBranchRef other =
      if other = save.branch then some save.envelope.id else store.readBranchRef other := by
  rw [← readBranchRef_writeObjectRef hund]
  simp [readBranchRef, writeObjectRef]

/-! ## The invariant of orderly runs -/

/-- How the store and the log of a run belong together. -/
structure Consistent (store : Store Oid) (log : List ((Moment × Command) × Answer Oid)) : Prop where
  lineage : Lineage (lineageOf log)
  stored : ∀ envelope, envelope ∈ store.snapshots ↔ ∃ save ∈ savedIn log, save.envelope = envelope
  tips : ∀ branch id, store.readBranchRef branch = some id → id ∈ (lineageOf log).map (·.1)
  indexed : ∀ id ∈ (lineageOf log).map (·.1), id ∈ store.index.map (·.id)

namespace Consistent

variable {store : Store Oid}

omit [DecidableEq Oid] in
theorem blank : Consistent (.blank : Store Oid) [] :=
  ⟨.nil, fun envelope => by simp [savedIn, Store.blank],
    fun branch id htip => by simp [readBranchRef, Store.blank] at htip,
    fun id hmem => nomatch hmem⟩

variable {envelope : SnapshotEnvelope Oid} (inv : Consistent store log)
include inv

section

omit [DecidableEq Oid]

theorem mem_lineageOf (hmem : envelope ∈ store.snapshots) :
    envelope.id ∈ (lineageOf log).map (·.1) := by
  obtain ⟨save, hsave, rfl⟩ := (inv.stored envelope).1 hmem
  simp only [lineageOf, List.map_map, mem_map]
  exact ⟨save, hsave, rfl⟩

/-- An id is new to the store exactly when it is new to the log. -/
theorem notMem_lineageOf {id : Oid} :
    (∀ envelope ∈ store.snapshots, envelope.id ≠ id) ↔ id ∉ (lineageOf log).map (·.1) := by
  constructor
  · intro hfresh hmem
    simp only [lineageOf, List.map_map, mem_map] at hmem
    obtain ⟨save, hsave, hid⟩ := hmem
    exact hfresh save.envelope ((inv.stored _).2 ⟨save, hsave, rfl⟩) hid
  · rintro hfresh envelope hmem rfl
    exact hfresh (inv.mem_lineageOf hmem)

/-- No two stored snapshots share their id. -/
theorem unique {other : SnapshotEnvelope Oid} (hmem : envelope ∈ store.snapshots)
    (hother : other ∈ store.snapshots) (hid : other.id = envelope.id) : other = envelope := by
  obtain ⟨save, hsave, rfl⟩ := (inv.stored envelope).1 hmem
  obtain ⟨save', hsave', rfl⟩ := (inv.stored other).1 hother
  have hnodup := inv.lineage.nodup
  simp only [lineageOf, List.map_map] at hnodup
  rw [inj_on_of_nodup_map hnodup hsave' hsave hid]

theorem sameHistory (same : SameHistory store after) : Consistent after log :=
  ⟨inv.lineage, fun envelope => by rw [same.snapshots]; exact inv.stored envelope,
    fun branch id htip => inv.tips branch id (same.refs branch ▸ htip),
    fun id hmem => by rw [same.index]; exact inv.indexed id hmem⟩

end

theorem findSnapshot (moment : Moment) (hmem : envelope ∈ store.snapshots) :
    store.findSnapshot moment envelope.id = some envelope :=
  findSnapshot_of_unique hmem fun _ hother hid => inv.unique hmem hother hid

/-- The tip of a branch is the snapshot its ref names. -/
theorem tipSnapshot_id (moment : Moment) (branch : String) :
    (store.tipSnapshot moment branch).map (·.id) = store.readBranchRef branch := by
  unfold tipSnapshot
  cases htip : store.readBranchRef branch with
  | none => rfl
  | some id =>
    have hmem := inv.tips branch id htip
    simp only [lineageOf, List.map_map, mem_map] at hmem
    obtain ⟨save, hsave, rfl⟩ := hmem
    have hstored := (inv.stored save.envelope).2 ⟨save, hsave, rfl⟩
    simp [inv.findSnapshot moment hstored]

/-- Committing a fresh save keeps store and log consistent. -/
theorem commit (hinj : Function.Injective svc.ids.hash) (hund : Undisturbed store save.branch)
    (hfresh : ∀ envelope ∈ store.snapshots, envelope.id ≠ save.envelope.id)
    (hparent : save.envelope.parentId = store.readBranchRef save.branch)
    (input : Moment × Command) :
    Consistent (save.commit svc store) (log ++ [(input, .saved save)]) := by
  have hlineage : lineageOf (log ++ [(input, .saved save)]) = _ := lineageOf_concat_saved rfl
  refine ⟨?_, fun envelope => ?_, fun branch id htip => ?_, fun id hmem => ?_⟩
  · rw [hlineage]
    refine .concat inv.lineage (fun hold => ?_) fun parent heq => inv.tips save.branch parent ?_
    · exact inv.notMem_lineageOf.1 hfresh hold
    · rw [← hparent, heq]
  · rw [Save.mem_snapshots_commit hinj, inv.stored, savedIn_concat_saved rfl]
    simp [eq_comm]
  · rw [Save.commit_readBranchRef hund] at htip
    rw [hlineage, map_append, mem_append]
    split at htip
    · exact .inr (by simpa using htip.symm)
    · exact .inl (inv.tips branch id htip)
  · rw [Save.mem_index_commit]
    rw [hlineage, map_append, mem_append] at hmem
    exact hmem.imp (inv.indexed id) (by simp)

end Consistent

/-! ## Orderly commands append -/

section Steps

variable {store target : Store Oid} {moment : Moment}

omit [DecidableEq Oid] in
theorem targetBranch_name {branch : Option String} {target : BranchName}
    (htarget : targetBranch store branch = .ok target) :
    target.name = branch.getD store.head.name := by
  cases branch with
  | none => rw [← Except.ok.inj htarget]; rfl
  | some branch => exact validateBranchName_eq_ok htarget

/-- With ids unique, a listing depends on neither the directory order
nor the other objects. -/
theorem Consistent.listSnapshots (inv : Consistent store log) (same : SameHistory store after) :
    after.listSnapshots moment = store.listSnapshots moment := by
  have hfind : ∀ id, after.findSnapshot moment id = store.findSnapshot moment id := by
    intro id
    cases hfound : store.findSnapshot moment id with
    | some envelope =>
      obtain ⟨hmem, rfl⟩ := findSnapshot_eq_some hfound
      exact (inv.sameHistory same).findSnapshot moment (same.snapshots ▸ hmem)
    | none =>
      cases hafter : after.findSnapshot moment id with
      | none => rfl
      | some envelope =>
        obtain ⟨hmem, rfl⟩ := findSnapshot_eq_some hafter
        rw [same.snapshots] at hmem
        rw [inv.findSnapshot moment hmem] at hfound
        exact hfound
  unfold Store.listSnapshots
  rw [same.index]
  simp [hfind]

/-- What `OnTop` gives, command by command: the store the snapshot is
committed to has the same history, the snapshot is new, and its parent is
the head of the branch it is saved on, which is the one to be advanced. -/
theorem Saved.onTop (saved : Saved svc moment store command target save)
    (inv : Consistent store log) (hcreates : ∀ head : BranchName, command = .init head.name →
      store.refs.read head.name = none → Undisturbed store head.name)
    (honTop : OnTop svc moment store command) :
    SameHistory store target ∧ save.branch = advancedBranch store command ∧
      (∀ envelope ∈ store.snapshots, envelope.id ≠ save.envelope.id) ∧
      save.envelope.parentId = store.readBranchRef (advancedBranch store command) := by
  have hself : SameHistory store store := (Untouched.refl store).sameHistory
  cases saved with
  | init head hlist =>
    have same := sameHistory_initFileLayout (hcreates head rfl)
    -- An empty index means that nothing was ever saved.
    have hindex : store.index = [] := by
      rw [inv.listSnapshots same, listSnapshots_eq_ok_iff] at hlist
      exact forall₂_nil_right_iff.1 hlist
    have hnone : ∀ id, id ∉ (lineageOf log).map (·.1) := by
      intro id hmem
      have hindexed := inv.indexed id hmem
      rw [hindex] at hindexed
      cases hindexed
    refine ⟨same, rfl, fun envelope hmem => absurd (inv.mem_lineageOf hmem) (hnone _), ?_⟩
    cases htip : store.readBranchRef (advancedBranch store (.init head.name)) with
    | none => rfl
    | some id => exact absurd (inv.tips _ id htip) (hnone id)
  | @change canonical branch snapshots graph target hlist happly htarget =>
    have same : SameHistory store (recordDraft svc moment canonical store) :=
      (untouched_recordDraft canonical store).sameHistory
    rw [inv.listSnapshots same] at hlist
    refine ⟨same, targetBranch_name htarget, honTop.1, ?_⟩
    exact honTop.2 snapshots hlist
  | @apply changeId yes policyProfile changeOid current reportHash base graph snapshotId canonical
      hid hcurrent hgate hbase hload happly =>
    refine ⟨hself, rfl, honTop.1, ?_⟩
    obtain ⟨snapshots, hlist, hcurrent⟩ := bind_eq_ok.1 hcurrent
    show current.map (·.id) = store.readBranchRef store.head.name
    rw [← Except.ok.inj hcurrent, ← inv.tipSnapshot_id moment]
    cases htip : store.tipSnapshot moment store.head.name with
    | some tip => rfl
    | none =>
      have hindex := honTop.2 (by rw [← inv.tipSnapshot_id moment, htip]; rfl)
      rw [listSnapshots_eq_ok_iff, hindex, forall₂_nil_left_iff] at hlist
      rw [hlist]
      rfl
  | rollbackTo hlist _ _ | rollbackToEmpty hlist _ _ | rollbackChange hlist _ _ =>
    exact ⟨hself, rfl, honTop.1, honTop.2 _ hlist⟩
  | rebase hgraph => exact ⟨hself, rfl, honTop _ hgraph, inv.tipSnapshot_id moment _⟩
  | @merge branch intoTarget snapshot graph htarget hgraph =>
    refine ⟨hself, honTop.1.symm, ?_, ?_⟩
    · show Unused svc store (mergeLabel branch (intoTarget.getD store.head.name))
      rw [honTop.1]
      exact honTop.2
    · show some snapshot.id = store.readBranchRef (intoTarget.getD store.head.name)
      rw [honTop.1] at htarget ⊢
      rw [← inv.tipSnapshot_id moment]
      -- Both ways to find the target look at the current branch.
      unfold mergeTarget branchHeadSnapshot headSnapshot at htarget
      rw [if_pos store.head.valid] at htarget
      cases htip : store.tipSnapshot moment store.head.name with
      | none => rw [htip] at htarget; exact nomatch htarget
      | some tip => rw [htip] at htarget; rw [← Except.ok.inj htarget]; rfl

/-- One orderly command appends and stays consistent. -/
theorem orderly_step (hinj : Function.Injective svc.ids.hash) (inv : Consistent store log)
    (orderly : Orderly svc store input) :
    Appended svc store log input ∧
      Consistent (step svc store input).1 (log ++ [(input, (step svc store input).2)]) := by
  by_cases hsaves : ∃ save, (step svc store input).2 = .saved save
  · obtain ⟨save, hsaved⟩ := hsaves
    obtain ⟨target, saved, hcommit⟩ := step_saved hsaved
    obtain ⟨hund, honTop⟩ := orderly.saves save hsaved
    obtain ⟨same, hbranch, hfresh, hparent⟩ := saved.onTop inv orderly.creates honTop
    rw [← hbranch] at hund hparent
    have hund' : Undisturbed target save.branch := hund.imp id fun hnone => by rw [same.refs, hnone]
    have hrefs := @Save.commit_readBranchRef Oid _ save svc target hund'
    have inv' := (inv.sameHistory same).commit hinj hund' (same.snapshots ▸ hfresh)
      (by rw [same.refs, hparent]) input
    have honly : ∀ {P : Save Oid → Prop}, P save →
        ∀ save', (step svc store input).2 = .saved save' → P save' := by
      intro P h save' hsaved'
      rwa [← Answer.saved.inj (hsaved.symm.trans hsaved')]
    refine ⟨⟨honly (inv.notMem_lineageOf.1 hfresh), honly (by rw [← hbranch, hparent]),
      honly (by rw [hcommit, hrefs, if_pos hbranch.symm]), fun branch hother => ?_⟩, ?_⟩
    · have hne : branch ≠ save.branch := fun heq => hother (heq.trans hbranch) save hsaved
      rw [hcommit, hrefs, if_neg hne, same.refs]
    · rw [hcommit, hsaved]
      exact inv'
  · have hnot := not_exists.1 hsaves
    have same : SameHistory store (step svc store input).1 := by
      rcases step_unsaved hnot with hgc | ⟨head, hinit, hstore⟩ | same
      · exact absurd hgc orderly.notGc
      · rw [hstore]
        exact sameHistory_initFileLayout (orderly.creates head hinit)
      · exact same.sameHistory
    refine ⟨⟨fun save hsaved => absurd hsaved (hnot save),
      fun save hsaved => absurd hsaved (hnot save),
      fun save hsaved => absurd hsaved (hnot save), fun branch _ => same.refs branch⟩, ?_⟩
    have hsame : savedIn (log ++ [(input, (step svc store input).2)]) = savedIn log :=
      savedIn_concat_unsaved hnot
    have inv' := inv.sameHistory same
    exact ⟨by rw [lineageOf, hsame]; exact inv'.lineage, by rw [hsame]; exact inv'.stored,
      by rw [lineageOf, hsame]; exact inv'.tips, by rw [lineageOf, hsame]; exact inv'.indexed⟩

/-! ## Only orderly commands append -/

omit [DecidableEq Oid] in
theorem latestSnapshot_eq_none {snapshots : List (SnapshotEnvelope Oid)}
    (hnone : latestSnapshot snapshots = none) : snapshots = [] := by
  cases snapshots using List.reverseRecOn with
  | nil => rfl
  | append_singleton snapshots snapshot =>
    rw [latestSnapshot, foldl_append] at hnone
    simp only [foldl_cons] at hnone
    split at hnone
    · split at hnone <;> exact nomatch hnone
    · cases hnone

omit [DecidableEq Oid] in
/-- The temporary file of a ref is gone after the ref was written. -/
theorem readBranchRef_temporaryName {refs : Directory (Option Oid)} {branch : String}
    {content : Option Oid} (hrefs : store.refs = refs.atomicWrite branch content)
    (hne : temporaryName branch ≠ branch) : store.readBranchRef (temporaryName branch) = none := by
  rw [readBranchRef, hrefs, Directory.read_atomicWrite_temporaryName _ _ hne]
  rfl

theorem readBranchRef_init_temporaryName (hmissing : store.refs.read head.name = none)
    (hne : temporaryName head.name ≠ head.name) :
    (step svc store (moment, .init head.name)).1.readBranchRef (temporaryName head.name) =
      none := by
  have hvalid : validateBranchName head.name = .ok head := by simp [validateBranchName, head.valid]
  have hlayout : (initFileLayout head store).refs = store.refs.atomicWrite head.name none := by
    simp [initFileLayout, hmissing, writeObjectRef]
  simp only [step, cmdInit, hvalid]
  split
  · exact readBranchRef_temporaryName hlayout hne
  · exact readBranchRef_temporaryName hlayout hne
  · exact readBranchRef_temporaryName Save.commit_refs hne

/-- The converse of `Saved.onTop`. -/
theorem Saved.onTop_of_appended (saved : Saved svc moment store command target save)
    (inv : Consistent store log) (hbranch : save.branch = advancedBranch store command)
    (hfresh : ∀ envelope ∈ store.snapshots, envelope.id ≠ save.envelope.id)
    (hparent : save.envelope.parentId = store.readBranchRef (advancedBranch store command)) :
    OnTop svc moment store command := by
  have hlast : ∀ {snapshots}, store.listSnapshots moment = .ok snapshots →
      snapshots.getLast?.map (·.id) = store.readBranchRef store.head.name →
      LastIsHead moment store := by
    intro snapshots hlist hhead snapshots' hlist'
    rwa [Except.ok.inj (hlist'.symm.trans hlist)]
  cases saved with
  | init head hlist => trivial
  | @change canonical branch snapshots graph target hlist happly htarget =>
    have same : SameHistory store (recordDraft svc moment canonical store) :=
      (untouched_recordDraft canonical store).sameHistory
    refine ⟨hfresh, fun snapshots' hlist' => ?_⟩
    rw [inv.listSnapshots same] at hlist
    rw [Except.ok.inj (hlist'.symm.trans hlist)]
    exact hparent
  | @apply changeId yes policyProfile changeOid current reportHash base graph snapshotId canonical
      hid hcurrent hgate hbase hload happly =>
    refine ⟨hfresh, fun hnone => ?_⟩
    obtain ⟨snapshots, hlist, hcurrent⟩ := bind_eq_ok.1 hcurrent
    have hparent : current.map (·.id) = store.readBranchRef store.head.name := hparent
    rw [hnone, Option.map_eq_none_iff, ← Except.ok.inj hcurrent, Option.or_eq_none_iff] at hparent
    rw [listSnapshots_eq_ok_iff, latestSnapshot_eq_none hparent.2] at hlist
    exact forall₂_nil_right_iff.1 hlist
  | rollbackTo hlist _ _ | rollbackToEmpty hlist _ _ | rollbackChange hlist _ _ =>
    exact ⟨hfresh, hlast hlist hparent⟩
  | @rebase branch graph hgraph =>
    intro graph' hgraph'
    rw [Except.ok.inj (hgraph'.symm.trans hgraph)]
    exact hfresh
  | @merge branch intoTarget snapshot graph htarget hgraph =>
    have hhead : intoTarget.getD store.head.name = store.head.name := hbranch.symm
    refine ⟨hhead, ?_⟩
    rw [hhead] at hfresh
    exact hfresh

theorem orderly_of_appended (inv : Consistent store log) (hnotGc : input.2 ≠ .gc)
    (appended : Appended svc store log input) : Orderly svc store input := by
  refine ⟨hnotGc, fun head hinit hmissing => ?_, fun save hsaved => ?_⟩
  · refine or_iff_not_imp_left.2 fun hself => ?_
    rcases input with ⟨moment, command⟩
    obtain rfl : command = .init head.name := hinit
    rw [← appended.others (temporaryName head.name) fun heq => absurd heq hself]
    exact readBranchRef_init_temporaryName hmissing hself
  · obtain ⟨target, saved, hcommit⟩ := step_saved hsaved
    have hfresh := inv.notMem_lineageOf.2 (appended.fresh save hsaved)
    -- The ref that was written now names a new snapshot, so it is the advanced one.
    have hbranch : save.branch = advancedBranch store input.2 := by
      by_contra hother
      have hsame := appended.others save.branch fun heq => absurd heq hother
      have htip : (step svc store input).1.readBranchRef save.branch = some save.envelope.id := by
        rw [hcommit]
        simp [readBranchRef]
      exact appended.fresh save hsaved (inv.tips save.branch _ (hsame ▸ htip))
    refine ⟨?_, saved.onTop_of_appended inv hbranch hfresh (appended.parent save hsaved)⟩
    rw [← hbranch]
    refine or_iff_not_imp_left.2 fun hself => ?_
    rw [← appended.others _ fun heq => absurd (heq.trans hbranch.symm) hself, hcommit]
    exact readBranchRef_temporaryName Save.commit_refs hself

end Steps

/-! ## Orderly runs -/

section Runs

variable (svc) in
/-- Every command of the run is orderly where it stands. -/
def OrderlyRun (inputs : List (Moment × Command)) : Prop :=
  Guarded (step svc) (fun store _ input => Orderly svc store input) .blank inputs

/-- An orderly run stays consistent. -/
theorem consistent_run (hinj : Function.Injective svc.ids.hash) (orderly : OrderlyRun svc inputs) :
    Consistent (run (step svc) .blank inputs).1 (run (step svc) .blank inputs).2 :=
  run_induction_guarded Consistent.blank
    (fun _ _ _ inv orderly => (orderly_step hinj inv orderly).2) inputs orderly

theorem appended_run (hinj : Function.Injective svc.ids.hash)
    (earlier : List (Moment × Command)) (input : Moment × Command) (later : List (Moment × Command))
    (orderly : OrderlyRun svc (earlier ++ input :: later)) :
    Appended svc (run (step svc) .blank earlier).1 (run (step svc) .blank earlier).2 input :=
  (orderly_step hinj (consistent_run hinj orderly.left) (orderly earlier input later rfl)).1

/-- A head stays an ancestor of its branch. -/
theorem ancestor_run (hinj : Function.Injective svc.ids.hash) {branch : String} {id : Oid}
    (earlier later : List (Moment × Command)) (orderly : OrderlyRun svc (earlier ++ later))
    (htip : (run (step svc) .blank earlier).1.readBranchRef branch = some id) :
    ∃ tip, (run (step svc) .blank (earlier ++ later)).1.readBranchRef branch = some tip ∧
      ReflTransGen (ParentOf (lineageOf (run (step svc) .blank (earlier ++ later)).2)) tip id := by
  -- Backwards along the later commands: each leaves the tip or puts one snapshot on top of it.
  induction later using List.reverseRecOn with
  | nil => exact ⟨id, by rwa [append_nil], .refl⟩
  | append_singleton later input ih =>
    rw [← append_assoc] at orderly ⊢
    obtain ⟨tip, hold, path⟩ := ih orderly.left
    have appended := appended_run hinj (earlier ++ later) input [] orderly
    rw [run_concat, exchange]
    generalize run (step svc) .blank (earlier ++ later) = point at hold path appended ⊢
    by_cases hadvance : branch = advancedBranch point.1 input.2 ∧
        ∃ save, (step svc point.1 input).2 = .saved save
    · obtain ⟨rfl, save, hsaved⟩ := hadvance
      refine ⟨save.envelope.id, appended.advances save hsaved, ?_⟩
      rw [lineageOf_concat_saved hsaved]
      refine .head ?_ (ancestor_mono (subset_append_left _ _) path)
      rw [appended.parent save hsaved, hold]
      exact mem_append_right _ (mem_singleton_self _)
    · refine ⟨tip, ?_, ancestor_mono ?_ path⟩
      · rw [appended.others branch fun heq save hsaved => hadvance ⟨heq, save, hsaved⟩, hold]
      · simp [lineageOf, savedIn]

/-- An orderly run only appends. -/
theorem appendOnly_of_orderly (hinj : Function.Injective svc.ids.hash)
    (orderly : OrderlyRun svc inputs) : AppendOnly svc inputs := by
  have inv := consistent_run hinj orderly
  refine ⟨?_, inv.lineage.acyclic, ?_, fun save hmem moment => ?_⟩
  · rintro earlier input later rfl
    exact appended_run hinj earlier input later orderly
  · rintro earlier later rfl branch id htip
    exact ancestor_run hinj earlier later orderly htip
  · exact inv.findSnapshot moment ((inv.stored _).2 ⟨save, hmem, rfl⟩)

/-- The history a sequence of commands leaves is append-only exactly
when every command of it is orderly where it stands. -/
theorem appendOnly_iff_orderlyRun (hinj : Function.Injective svc.ids.hash)
    (inputs : List (Moment × Command)) (hnotGc : ∀ input ∈ inputs, input.2 ≠ .gc) :
    AppendOnly svc inputs ↔ OrderlyRun svc inputs := by
  refine ⟨fun history => ?_, appendOnly_of_orderly hinj⟩
  suffices orderly : ∀ earlier later, inputs = earlier ++ later → OrderlyRun svc earlier from
    orderly inputs [] (append_nil inputs).symm
  intro earlier
  -- An orderly beginning is consistent, and there an append is made by an orderly command only.
  induction earlier using List.reverseRecOn with
  | nil => exact fun _ _ => Guarded.nil
  | append_singleton earlier input ih =>
    intro later hinputs
    have hinputs' : inputs = earlier ++ input :: later := by simp [hinputs]
    have orderly := ih (input :: later) hinputs'
    refine orderly.concat (orderly_of_appended (consistent_run hinj orderly) ?_ ?_)
    · exact hnotGc input (by simp [hinputs'])
    · exact history.appended earlier input later hinputs'

/-- A project that is initialised and gets one change applied at once. -/
theorem appendOnly_init_change :
    AppendOnly (Sample.services [])
      [(Sample.instant 1, .init "main"), (Sample.instant 2, .change Sample.draft true none)] := by
  refine (appendOnly_iff_orderlyRun Digest.ofContent_injective _ (by simp)).2 ?_
  have hinit : OrderlyRun (Sample.services []) ([] ++ [(Sample.instant 1, .init "main")]) :=
    Guarded.nil.concat ⟨nofun, fun _ _ _ => .inr rfl, fun _ _ => ⟨.inr rfl, trivial⟩⟩
  refine hinit.concat ⟨nofun, nofun, fun _ _ => ⟨.inr rfl, by decide, fun snapshots hlist => ?_⟩⟩
  rw [← Except.ok.inj hlist]
  rfl

/-- Two rollbacks to the same snapshot are saved under one id, and the
second is its own parent. -/
theorem rollback_twice_not_appendOnly :
    ¬ AppendOnly (Sample.services [.label "genesis"])
      [(Sample.instant 1, .init "main"), (Sample.instant 2, .rollback (some "label:genesis") none),
        (Sample.instant 3, .rollback (some "label:genesis") none)] := by
  intro history
  refine history.acyclic (.label "rollback-to-label:genesis") (.single ?_)
  decide

end Runs

end Ail.Cli
