import Ail.Cli.Steps
import Ail.Lib.Run

/-!
# What is applied and what was verified

`apply` accepts the report that the last `verify` of the same change id
left in a sidecar. The sidecar says neither which graph was looked at nor
that it was the change's: a changeset that is not stored yet, is stale or
does not apply is verified as the EMPTY graph, and between the two
commands the current graph may change. The profile is read back from the
sidecar trimmed, and an empty one as `dev`.

`UpToDate` says that none of this happened: the last verification saw the
change applied to a graph, that graph is still the current one, and its
profile reads back as it was given. A successful `apply` saves what was
verified exactly then. It is an equivalence because every sidecar is that
of the last verification of its change, whatever the commands
(`Recorded`).
-/

namespace Ail.Cli

open Ail.Core Change Verify Storage Lib Sample

variable {Oid : Type} [DecidableEq Oid] {changeId : String} {graph base : SemanticGraph}
  {input : Moment × Command}

/-! ## Verifications in a log -/

/-- One run of the pipeline: what it was asked and what it looked at. -/
structure Verification where
  profile : String
  solver : String
  graph : SemanticGraph
  base : Option SemanticGraph
  report : VerificationReport

def verificationOf (changeId : String) :
    (Moment × Command) × Answer Oid → Option Verification
  | ((_, .verify verifiedId profile solver), .verified graph base report) =>
    if verifiedId = changeId then some ⟨profile, solver, graph, base, report⟩ else none
  | _ => none

/-- The last verification of a change id. -/
def lastVerification (changeId : String) (log : List ((Moment × Command) × Answer Oid)) :
    Option Verification :=
  (log.filterMap (verificationOf changeId)).getLast?

omit [DecidableEq Oid] in
theorem lastVerification_concat (changeId : String) (log : List ((Moment × Command) × Answer Oid))
    (exchange : (Moment × Command) × Answer Oid) :
    lastVerification changeId (log ++ [exchange]) =
      (verificationOf changeId exchange).or (lastVerification changeId log) := by
  cases hexchange : verificationOf changeId exchange <;>
    simp [lastVerification, hexchange]

variable (svc : Services Oid)

/-- A successful `apply` saves the graph that the last verification of
the change looked at, which is the change applied to the graph now
current; it was made for the profile now asked for, and its report is
the one the snapshot records. -/
def AppliesVerified (store : Store Oid) (log : List ((Moment × Command) × Answer Oid))
    (input : Moment × Command) : Prop :=
  ∀ changeId yes policyProfile save, input.2 = .apply changeId yes policyProfile →
    (step svc store input).2 = .saved save →
    ∃ v solver base snapshotId, lastVerification changeId log = some v ∧
      buildSolver svc v.solver = .ok solver ∧
      v.report = svc.runWithChangeset solver v.profile v.graph v.base ∧
      save.envelope.verificationReportHash = some (svc.ids.object (.report v.report v.profile)) ∧
      v.profile = policyProfile.getD "dev" ∧
      save.graph = some v.graph ∧
      v.base = some base ∧ loadCurrentGraphWithSnapshotId svc input.1 store = .ok (base, snapshotId)

/-- The last verification of the change still stands. -/
def UpToDate (store : Store Oid) (log : List ((Moment × Command) × Answer Oid))
    (input : Moment × Command) : Prop :=
  ∀ changeId yes policyProfile save, input.2 = .apply changeId yes policyProfile →
    (step svc store input).2 = .saved save →
    ∀ v, lastVerification changeId log = some v →
      sidecarProfile v.profile = v.profile ∧
      ∃ base snapshotId, v.base = some base ∧
        loadCurrentGraphWithSnapshotId svc input.1 store = .ok (base, snapshotId)

/-! ## What a verification leaves behind -/

/-- The report comes from the pipeline, and a graph with a base is the
change applied to that base. -/
structure Genuine (changeId : String) (v : Verification) : Prop where
  computed : ∃ solver, buildSolver svc v.solver = .ok solver ∧
    v.report = svc.runWithChangeset solver v.profile v.graph v.base
  applied : ∀ base, v.base = some base → ∃ canonical snapshotId,
    svc.ids.ofHex changeId = some (svc.ids.object (.changeset canonical)) ∧
      apply svc.nodeHash snapshotId canonical base = (.applied, v.graph)

/-- Every sidecar is that of the last verification of its change. -/
structure Recorded (store : Store Oid) (log : List ((Moment × Command) × Answer Oid)) : Prop where
  sidecar : ∀ changeId hash profile, store.reports.read changeId = some (hash, profile) →
    ∃ v, lastVerification changeId log = some v ∧ v.profile = profile ∧
      hash = svc.ids.object (.report v.report profile)
  genuine : ∀ changeId v, lastVerification changeId log = some v → Genuine svc changeId v

section Steps

variable {svc} {moment : Moment} {store : Store Oid}
  {log : List ((Moment × Command) × Answer Oid)}

theorem verifiedGraph_base
    (hverified : verifiedGraph svc moment store changeId = .ok (graph, some base)) :
    ∃ canonical snapshotId,
      svc.ids.ofHex changeId = some (svc.ids.object (.changeset canonical)) ∧
        apply svc.nodeHash snapshotId canonical base = (.applied, graph) := by
  obtain ⟨canonical?, hload, hverified⟩ := bind_eq_ok.1 hverified
  cases canonical? with
  | none => simp [pure, Except.pure] at hverified
  | some canonical =>
    obtain ⟨⟨current, snapshotId⟩, -, hverified⟩ := bind_eq_ok.1 hverified
    refine ⟨canonical, snapshotId, loadChangesetById_eq_some hload, ?_⟩
    dsimp only at hverified
    split at hverified
    · rename_i happly
      obtain ⟨rfl, hbase⟩ := Prod.mk.inj (Except.ok.inj hverified)
      rw [← Option.some.inj hbase, happly]
    · simp [pure, Except.pure] at hverified

theorem cmdVerify_cases (changeId profile solver : String) :
    (cmdVerify svc moment changeId profile solver store).1 = store ∧
        (∃ error, (cmdVerify svc moment changeId profile solver store).2 = .failed error) ∨
      ∃ graph base backend, verifiedGraph svc moment store changeId = .ok (graph, base) ∧
        buildSolver svc solver = .ok backend ∧
        cmdVerify svc moment changeId profile solver store =
          (store.saveVerificationReport svc.ids changeId profile
            (svc.runWithChangeset backend profile graph base),
          .verified graph base (svc.runWithChangeset backend profile graph base)) := by
  unfold cmdVerify
  split
  · exact .inl ⟨rfl, _, rfl⟩
  · split
    · exact .inl ⟨rfl, _, rfl⟩
    · rename_i graph base hgraph
      split
      · exact .inl ⟨rfl, _, rfl⟩
      · rename_i backend hbackend
        exact .inr ⟨graph, base, backend, hgraph, hbackend, rfl⟩

@[simp] theorem settle_reports (plan : Except CliError (Save Oid)) :
    (settle svc store plan).1.reports = store.reports := by
  cases plan <;> simp [settle]

/-- Only `verify` writes sidecars. -/
theorem step_reports {command : Command}
    (hnot : ∀ changeId profile solver, command ≠ .verify changeId profile solver) :
    (step svc store (moment, command)).1.reports = store.reports := by
  cases command with
  | verify changeId profile solver => exact absurd rfl (hnot changeId profile solver)
  | init branch =>
    have hlayout : ∀ head, (initFileLayout head store).reports = store.reports := by
      intro head
      unfold initFileLayout
      dsimp only
      split <;> rfl
    simp only [step, cmdInit]
    split
    · rfl
    · split <;> simp [hlayout]
  | change canonical applyImmediately branch =>
    have hdraft : (recordDraft svc moment canonical store).reports = store.reports := by
      simp [recordDraft]
    simp only [step, cmdChange]
    split
    · split
      · exact hdraft
      · split
        · exact hdraft
        · split <;> simp [hdraft]
    · exact hdraft
  | apply changeId yes policyProfile => exact settle_reports _
  | rollback toSnapshot changeId => exact settle_reports _
  | rebase branch onto =>
    cases onto with
    | none => exact settle_reports _
    | some onto =>
      simp only [step, cmdRebase]
      split
      · rfl
      · split <;> rfl
  | merge branch intoTarget => exact settle_reports _
  | gc => rfl

/-- A verification leaves its sidecar and is the last of its change. -/
theorem Recorded.verified (inv : Recorded svc store log) {profile solver : String}
    {base : Option SemanticGraph} {backend : AnySolver}
    (hgraph : verifiedGraph svc moment store changeId = .ok (graph, base))
    (hbackend : buildSolver svc solver = .ok backend) :
    Recorded svc
      (store.saveVerificationReport svc.ids changeId profile
        (svc.runWithChangeset backend profile graph base))
      (log ++ [((moment, .verify changeId profile solver),
        .verified graph base (svc.runWithChangeset backend profile graph base))]) := by
  refine ⟨fun id hash profile' hread => ?_, fun id v hv => ?_⟩
  · rw [lastVerification_concat]
    simp only [Store.saveVerificationReport, Store.put_reports] at hread
    by_cases hself : id = changeId
    · subst hself
      rw [Directory.read_atomicWrite_self, Option.some.injEq] at hread
      obtain ⟨rfl, rfl⟩ := hread
      exact ⟨_, by rw [verificationOf, if_pos rfl]; rfl, rfl, rfl⟩
    · rw [verificationOf, if_neg (Ne.symm hself)]
      refine inv.sidecar id hash profile' ?_
      by_cases htmp : id = temporaryName changeId
      · subst htmp
        rw [Directory.read_atomicWrite_temporaryName _ _ hself] at hread
        cases hread
      · rwa [Directory.read_atomicWrite_of_ne _ _ hself htmp] at hread
  · rw [lastVerification_concat] at hv
    by_cases hself : id = changeId
    · subst hself
      rw [verificationOf, if_pos rfl, Option.some_or, Option.some.injEq] at hv
      subst hv
      refine ⟨⟨backend, hbackend, rfl⟩, fun before hbefore => ?_⟩
      obtain rfl : base = some before := hbefore
      exact verifiedGraph_base hgraph
    · rw [verificationOf, if_neg (Ne.symm hself)] at hv
      exact inv.genuine id v hv

omit [DecidableEq Oid] in
/-- Nothing else touches the sidecars or counts as a verification. -/
theorem Recorded.unverified (inv : Recorded svc store log) {store' : Store Oid}
    {exchange : (Moment × Command) × Answer Oid} (hreports : store'.reports = store.reports)
    (hnone : ∀ changeId, verificationOf changeId exchange = none) :
    Recorded svc store' (log ++ [exchange]) := by
  have hlast : ∀ changeId,
      lastVerification changeId (log ++ [exchange]) = lastVerification changeId log := by
    intro changeId
    rw [lastVerification_concat, hnone, Option.none_or]
  exact ⟨by simpa only [hlast, hreports] using inv.sidecar, by simpa only [hlast] using inv.genuine⟩

theorem recorded_step (inv : Recorded svc store log) :
    Recorded svc (step svc store input).1 (log ++ [(input, (step svc store input).2)]) := by
  rcases input with ⟨moment, command⟩
  cases command with
  | verify changeId profile solver =>
    show Recorded svc (cmdVerify svc moment changeId profile solver store).1
      (log ++ [((moment, _), (cmdVerify svc moment changeId profile solver store).2)])
    rcases @cmdVerify_cases _ _ svc moment store changeId profile solver with
      ⟨hstore, error, hfailed⟩ | ⟨graph, base, backend, hgraph, hbackend, hanswer⟩
    · rw [hstore, hfailed]
      exact inv.unverified rfl fun _ => rfl
    · rw [hanswer]
      exact inv.verified hgraph hbackend
  | _ => exact inv.unverified (step_reports nofun) fun _ => rfl

/-! ## At one point of a run -/

omit [DecidableEq Oid] in
/-- Applying a change to the same graph gives the same result, whatever
the id of the current snapshot. -/
theorem apply_graph_unique {first second : SnapshotId} {canonical : CanonicalChangeSet}
    {graph' : SemanticGraph} (happly : apply svc.nodeHash first canonical base = (.applied, graph))
    (happly' : apply svc.nodeHash second canonical base = (.applied, graph')) : graph = graph' := by
  obtain ⟨-, -, hops⟩ := (apply_eq_applied_iff svc.nodeHash _ _ _ _).1 happly
  obtain ⟨-, -, hops'⟩ := (apply_eq_applied_iff svc.nodeHash _ _ _ _).1 happly'
  exact Except.ok.inj (hops.symm.trans hops')

/-- The two agree at every point of a run: the gate reads the sidecar of
the last verification, and what `apply` does with the same base is what
`verify` did. -/
theorem appliesVerified_iff_upToDate (hinj : Function.Injective svc.ids.hash)
    (inv : Recorded svc store log) :
    AppliesVerified svc store log input ↔ UpToDate svc store log input := by
  rcases input with ⟨moment, command⟩
  constructor
  · rintro verified changeId yes policyProfile save rfl hsaved v hlast
    obtain ⟨v', solver, base, snapshotId, hlast', -, -, -, hprofile, -, hbase, hcurrent⟩ :=
      verified changeId yes policyProfile save rfl hsaved
    obtain rfl : v = v' := Option.some.inj (hlast.symm.trans hlast')
    refine ⟨?_, base, snapshotId, hbase, hcurrent⟩
    obtain ⟨target, saved, -⟩ := step_saved hsaved
    cases saved with
    | apply hid _ hgate _ _ _ =>
      obtain ⟨recorded, hread, hside, -⟩ := verificationGate_eq_ok hgate
      obtain ⟨v', hlast', rfl, -⟩ := inv.sidecar _ _ _ hread
      obtain rfl : v = v' := Option.some.inj (hlast.symm.trans hlast')
      rw [hside, hprofile]
  · rintro upToDate changeId yes policyProfile save rfl hsaved
    obtain ⟨target, saved, -⟩ := step_saved hsaved
    cases saved with
    | apply hid _ hgate hbase hload happly =>
      obtain ⟨recorded, hread, hside, -⟩ := verificationGate_eq_ok hgate
      obtain ⟨v, hlast, rfl, rfl⟩ := inv.sidecar _ _ _ hread
      obtain ⟨hprofile, base, snapshotId, hvbase, hcurrent⟩ :=
        upToDate changeId yes policyProfile _ rfl hsaved v hlast
      obtain ⟨⟨solver, hsolver, hreport⟩, happlied⟩ := inv.genuine changeId v hlast
      obtain ⟨canonical, verifiedAt, hoid, hvapply⟩ := happlied base hvbase
      -- The change id names one changeset, and both commands saw the same base.
      rw [loadChangesetById_eq_some hload, Option.some.injEq] at hoid
      obtain rfl := StoredObject.changeset.inj (svc.ids.object_injective hinj hoid)
      cases hbase.symm.trans hcurrent
      refine ⟨v, solver, _, _, hlast, hsolver, hreport, rfl, ?_, ?_, hvbase, hcurrent⟩
      · rw [← hside, hprofile]
      · rw [← apply_graph_unique happly hvapply]
        rfl

end Steps

/-! ## Every run -/

variable {svc}

theorem recorded_run (inputs : List (Moment × Command)) :
    Recorded svc (run (step svc) .blank inputs).1 (run (step svc) .blank inputs).2 := by
  refine run_induction ⟨?_, ?_⟩ (fun store log input inv => recorded_step inv) inputs
  · intro changeId hash profile hread
    simp [Store.blank] at hread
  · intro changeId v hv
    simp [lastVerification] at hv

/-- Whatever the commands before it, a successful `apply` saves what the
report it accepts was computed on exactly when the last verification of
the change is up to date. -/
theorem applied_verified_iff (hinj : Function.Injective svc.ids.hash)
    (inputs : List (Moment × Command)) :
    Guarded (step svc) (AppliesVerified svc) .blank inputs ↔
      Guarded (step svc) (UpToDate svc) .blank inputs := by
  refine forall_congr' fun earlier => forall_congr' fun input => forall_congr' fun later => ?_
  exact imp_congr_right fun _ => appliesVerified_iff_upToDate hinj (recorded_run earlier)

/-- The commands in their intended order: the change is applied, and it
is what was verified. -/
theorem applied_verified_in_order :
    (∃ save, (run (step (Sample.services [.changeset Sample.draft])) .blank
      [(Sample.instant 1, .init "main"), (Sample.instant 2, .change Sample.draft false none),
        (Sample.instant 3, .verify "change:draft" "dev" "simple"),
        (Sample.instant 4, .apply "change:draft" false none)]).2.getLast?.map (·.2) =
          some (.saved save)) ∧
    Guarded (step (Sample.services [.changeset Sample.draft]))
      (AppliesVerified (Sample.services [.changeset Sample.draft])) .blank
      [(Sample.instant 1, .init "main"), (Sample.instant 2, .change Sample.draft false none),
        (Sample.instant 3, .verify "change:draft" "dev" "simple"),
        (Sample.instant 4, .apply "change:draft" false none)] := by
  refine ⟨⟨_, rfl⟩, (applied_verified_iff Digest.ofContent_injective _).2 ?_⟩
  have hearlier : Guarded (step (services [.changeset draft]))
      (UpToDate (services [.changeset draft])) .blank
      ([] ++ [(instant 1, .init "main")] ++
        [(instant 2, .change draft false none)] ++
        [(instant 3, .verify "change:draft" "dev" "simple")]) := by
    refine ((Guarded.nil.concat ?_).concat ?_).concat ?_
    all_goals exact fun _ _ _ _ hcommand => nomatch hcommand
  refine hearlier.concat fun changeId yes policyProfile save hcommand _ v hlast => ?_
  obtain ⟨rfl, -, -⟩ := Command.apply.inj hcommand
  cases hlast
  exact ⟨by decide, .empty, ⟨0⟩, rfl, rfl⟩

/-- Verified before the changeset is stored, the change counts as the
empty graph; the report lets the change itself pass. -/
theorem applied_unverified :
    ¬ Guarded (step (Sample.services [.changeset Sample.draft]))
      (AppliesVerified (Sample.services [.changeset Sample.draft])) .blank
      [(Sample.instant 1, .init "main"), (Sample.instant 2, .verify "change:draft" "dev" "simple"),
        (Sample.instant 3, .change Sample.draft false none),
        (Sample.instant 4, .apply "change:draft" false none)] := by
  intro verified
  have happly := verified
    [(instant 1, .init "main"), (instant 2, .verify "change:draft" "dev" "simple"),
      (instant 3, .change draft false none)] _ [] rfl
  obtain ⟨v, _, base, _, hlast, -, -, -, -, -, hbase, -⟩ :=
    happly "change:draft" false none _ rfl rfl
  cases hlast
  cases hbase

end Ail.Cli
