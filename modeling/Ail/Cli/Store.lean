import Ail.Core.Text
import Ail.Lib.Directory
import Ail.Lib.Outcome
import Ail.Storage.Object

/-!
# The file-backed project store

The `.ail` directory (`store/handle.rs`, `store_file.rs`): the name of
the current branch in `HEAD`, one ref file per branch, the snapshot
index, the objects and the report sidecars.

A snapshot is found by its id, not by its hash: `findSnapshot` scans the
object directory in whatever order the file system lists it and takes
the first envelope with that id. The listing order is therefore part of
a `Moment`, the circumstances under which one command runs. Every
command is its own process, so nothing is cached between two of them.

File-system errors and damaged files are left out, and so is what the
codec says about bytes it cannot decode.
-/

namespace Ail.Cli

open Ail.Core Change Verify Storage Lib List

inductive CliError where
  | notFound (message : String)
  | rebaseRequired (currentSnapshotId : SnapshotId)
  | storage (error : StorageError)
  | domain (message : String)

/-- The clock when a log entry and when a snapshot is stamped, and the
order in which directories are listed. -/
structure Moment where
  logTime : UInt64
  now : UInt64
  order : {α : Type} → List α → List α
  order_perm : ∀ {α : Type} (files : List α), (order files).Perm files

@[simp] theorem Moment.mem_order (moment : Moment) {α : Type} {files : List α} {file : α} :
    file ∈ moment.order files ↔ file ∈ files :=
  (moment.order_perm files).mem_iff

/-! ## Branch names -/

def containsDotDot : List Char → Bool
  | '.' :: '.' :: _ => true
  | _ :: rest => containsDotDot rest
  | [] => false

/-- The check of `validate_branch_name` and of `validate_local_name`,
which differ in the error they raise. -/
def isBranchName (name : String) : Bool :=
  !(name.isEmpty || name.toList.contains '/' || containsDotDot name.toList ||
    name.toList.contains '\\' || name.toList.any isWhitespace)

structure BranchName where
  name : String
  valid : isBranchName name = true

def validateBranchName (name : String) : Except CliError BranchName :=
  if h : isBranchName name = true then .ok ⟨name, h⟩
  else .error (.storage (.codec ("invalid branch name: " ++ name)))

/-! ## The store -/

structure SnapshotIndexEntry (Oid : Type) where
  id : Oid
  createdAt : UInt64

/-- A branch whose ref file is empty has no snapshot yet. A sidecar
records the hash of a report and the profile it was asked for. -/
structure Store (Oid : Type) where
  head : BranchName
  refs : Directory (Option Oid)
  index : List (SnapshotIndexEntry Oid)
  objects : List (StoredObject Oid)
  reports : Directory (Oid × String)

/-- What an object decodes to when a snapshot is wanted. -/
def asSnapshot {Oid : Type} : StoredObject Oid → Option (SnapshotEnvelope Oid)
  | .snapshot envelope => some envelope
  | _ => none

/-- The profile a sidecar is read back with. The line is trimmed and cut
at its first blank, and a line without profile stands for `dev`. -/
def sidecarProfile (profile : String) : String :=
  match trim profile.toList with
  | [] => "dev"
  | trimmed => String.ofList trimmed

namespace Store

variable {Oid : Type} [DecidableEq Oid] (ids : ObjectIds Oid) (moment : Moment)
  {object : StoredObject Oid} {listed : List (SnapshotEnvelope Oid)}

/-- The directory before the first `init`. -/
def blank : Store Oid := ⟨⟨"main", rfl⟩, .empty, [], [], .empty⟩

/-! ### Objects -/

/-- An object is written only if no file has its name yet. -/
def put (object : StoredObject Oid) (store : Store Oid) : Store Oid :=
  if store.objects.any (ids.object · = ids.object object) then store
  else { store with objects := store.objects ++ [object] }

def get (store : Store Oid) (id : Oid) : Option (StoredObject Oid) :=
  store.objects.find? (ids.object · = id)

def loadGraph (store : Store Oid) (root : Oid) : Except CliError (Option SemanticGraph) :=
  match store.get ids root with
  | none => .ok none
  | some (.graph graph) => .ok (some graph)
  | some _ => .error (.domain "graph decoding failed")

def loadChangesetById (store : Store Oid) (changeId : String) :
    Except CliError (Option CanonicalChangeSet) :=
  match ids.ofHex changeId with
  | none => .error (.domain ("invalid change-id: " ++ changeId))
  | some id =>
    match store.get ids id with
    | none => .ok none
    | some (.changeset changeset) => .ok (some changeset)
    | some _ => .error (.domain "changeset decoding failed")

/-! ### Snapshots -/

def findSnapshot (store : Store Oid) (id : Oid) : Option (SnapshotEnvelope Oid) :=
  ((moment.order store.objects).filterMap asSnapshot).find? (·.id = id)

/-- Every indexed snapshot, in index order. -/
def listSnapshots (store : Store Oid) : Except CliError (List (SnapshotEnvelope Oid)) :=
  store.index.mapM fun entry =>
    match store.findSnapshot moment entry.id with
    | some snapshot => .ok snapshot
    | none => .error (.storage .notFound)

/-- The id in a branch's ref file. -/
def readBranchRef (store : Store Oid) (branch : String) : Option Oid :=
  (store.refs.read branch).join

/-- The snapshot at the tip of a branch, if there is one. -/
def tipSnapshot (store : Store Oid) (branch : String) : Option (SnapshotEnvelope Oid) :=
  (store.readBranchRef branch).bind (store.findSnapshot moment)

def headSnapshot (store : Store Oid) : Option (SnapshotEnvelope Oid) :=
  store.tipSnapshot moment store.head.name

def writeObjectRef (branch : String) (id : Option Oid) (store : Store Oid) : Store Oid :=
  { store with refs := store.refs.atomicWrite branch id }

/-- A known id keeps its place until the sort, which is stable. -/
def updateSnapshotIndex (envelope : SnapshotEnvelope Oid) (store : Store Oid) : Store Oid :=
  let entry : SnapshotIndexEntry Oid := ⟨envelope.id, envelope.createdAt⟩
  let entries :=
    if store.index.any (·.id = envelope.id) then
      store.index.replaceF fun known => if known.id = envelope.id then some entry else none
    else store.index ++ [entry]
  { store with
    index := entries.insertionSort fun first second => first.createdAt ≤ second.createdAt }

def saveSnapshotOnBranch (branch : String) (envelope : SnapshotEnvelope Oid)
    (store : Store Oid) : Store Oid :=
  ((store.put ids (.snapshot envelope)).writeObjectRef branch
    (some envelope.id)).updateSnapshotIndex envelope

/-! ### Report sidecars -/

def saveVerificationReport (changeId profile : String) (report : VerificationReport)
    (store : Store Oid) : Store Oid :=
  let store := store.put ids (.report report profile)
  { store with
    reports := store.reports.atomicWrite changeId (ids.object (.report report profile), profile) }

def loadVerificationReportByChangeId (store : Store Oid) (changeId : String) :
    Except CliError (Option (VerificationReport × Oid × String)) :=
  match store.reports.read changeId with
  | none => .ok none
  | some (hash, profile) =>
    match store.get ids hash with
    | none => .ok none
    | some (.report report _) => .ok (some (report, hash, sidecarProfile profile))
    | some _ => .error (.domain "report decoding failed")

/-! ## What the operations leave behind -/

section Objects

variable {ids} {store : Store Oid}

@[simp] theorem put_head (object : StoredObject Oid) :
    (store.put ids object).head = store.head := by
  unfold put; split <;> rfl

@[simp] theorem put_refs (object : StoredObject Oid) :
    (store.put ids object).refs = store.refs := by
  unfold put; split <;> rfl

@[simp] theorem put_index (object : StoredObject Oid) :
    (store.put ids object).index = store.index := by
  unfold put; split <;> rfl

@[simp] theorem put_reports (object : StoredObject Oid) :
    (store.put ids object).reports = store.reports := by
  unfold put; split <;> rfl

theorem mem_put (hinj : Function.Injective ids.hash) {other : StoredObject Oid} :
    other ∈ (store.put ids object).objects ↔ other ∈ store.objects ∨ other = object := by
  unfold put
  split
  · rename_i hany
    obtain ⟨known, hmem, hhash⟩ := any_eq_true.1 hany
    obtain rfl := ids.object_injective hinj (of_decide_eq_true hhash)
    exact ⟨Or.inl, fun hor => hor.elim id fun heq => heq ▸ hmem⟩
  · simp

theorem get_eq_some {id : Oid} (hget : store.get ids id = some object) :
    object ∈ store.objects ∧ ids.object object = id :=
  ⟨mem_of_find?_eq_some hget, by simpa using find?_some hget⟩

theorem loadChangesetById_eq_ok_iff {changeId : String} {canonical : CanonicalChangeSet} :
    store.loadChangesetById ids changeId = .ok (some canonical) ↔
      ∃ id, ids.ofHex changeId = some id ∧ store.get ids id = some (.changeset canonical) := by
  unfold loadChangesetById
  cases hid : ids.ofHex changeId with
  | none => simp
  | some id =>
    cases hget : store.get ids id with
    | none => simp [hget]
    | some object => cases object <;> simp [hget]

end Objects

section Snapshots

variable {moment} {store : Store Oid}

/-- The snapshots among the objects. -/
def snapshots (store : Store Oid) : List (SnapshotEnvelope Oid) :=
  store.objects.filterMap asSnapshot

variable {envelope : SnapshotEnvelope Oid}

omit [DecidableEq Oid] in
@[simp] theorem mem_snapshots :
    envelope ∈ store.snapshots ↔ .snapshot envelope ∈ store.objects := by
  simp only [snapshots, mem_filterMap]
  constructor
  · rintro ⟨object, hmem, hdecode⟩
    cases object <;> cases hdecode
    exact hmem
  · exact fun hmem => ⟨_, hmem, rfl⟩

theorem findSnapshot_eq_some {id : Oid} (hfind : store.findSnapshot moment id = some envelope) :
    envelope ∈ store.snapshots ∧ envelope.id = id := by
  have hperm := (moment.order_perm store.objects).filterMap asSnapshot
  exact ⟨hperm.mem_iff.1 (mem_of_find?_eq_some hfind), by simpa using find?_some hfind⟩

variable (moment) in
theorem exists_findSnapshot (hmem : envelope ∈ store.snapshots) :
    ∃ found, store.findSnapshot moment envelope.id = some found := by
  have hperm := (moment.order_perm store.objects).filterMap asSnapshot
  cases hfind : store.findSnapshot moment envelope.id with
  | some found => exact ⟨found, rfl⟩
  | none =>
    have hnone := find?_eq_none.1 hfind envelope (hperm.mem_iff.2 hmem)
    simp at hnone

/-- An id that only one stored snapshot has is found however the
directory is listed. -/
theorem findSnapshot_of_unique (hmem : envelope ∈ store.snapshots)
    (hunique : ∀ other ∈ store.snapshots, other.id = envelope.id → other = envelope) :
    store.findSnapshot moment envelope.id = some envelope := by
  obtain ⟨found, hfind⟩ := exists_findSnapshot moment hmem
  obtain ⟨hfound, hid⟩ := findSnapshot_eq_some hfind
  rw [hfind, hunique found hfound hid]

theorem listSnapshots_eq_ok_iff :
    store.listSnapshots moment = .ok listed ↔
      List.Forall₂ (fun entry snapshot => store.findSnapshot moment entry.id = some snapshot)
        store.index listed := by
  rw [listSnapshots, mapM_eq_ok_iff_forall₂]
  constructor <;> refine List.Forall₂.imp fun entry snapshot hentry => ?_
  · cases hfind : store.findSnapshot moment entry.id with
    | none => simp [hfind] at hentry
    | some found => simpa [hfind] using hentry
  · rw [hentry]

theorem exists_of_mem_listSnapshots (hlist : store.listSnapshots moment = .ok listed)
    {snapshot : SnapshotEnvelope Oid} (hmem : snapshot ∈ listed) :
    ∃ entry ∈ store.index, store.findSnapshot moment entry.id = some snapshot := by
  obtain ⟨entry, hentry, hfound⟩ := exists_mem_of_mapM_eq_ok hlist hmem
  refine ⟨entry, hentry, ?_⟩
  cases hfind : store.findSnapshot moment entry.id with
  | none => simp [hfind] at hfound
  | some found => simpa [hfind] using hfound

end Snapshots

end Store

end Ail.Cli
