import Mytools.Controller.Proof.Render
import Mytools.Controller.Webhook.Workload

/-!
# Where a database is replicated to

The admission handlers tell destinations apart by the name of the replica and the path of the
database. The section that is rendered for a database takes its location from the replica alone, so
two databases that name one replica write to one location.
-/

namespace Controller.Config

open Lib V1alpha1 Webhook

/-- The fields of a section that say where it writes. -/
structure Location where
  type : String
  bucket : String
  path : String
  endpoint : String
  region : String
  url : String
  host : String
  webDAVURL : String
  accountName : String
  deriving DecidableEq, Repr

def ReplicaYAML.location (r : ReplicaYAML) : Location :=
  ⟨r.type, r.bucket, r.path, r.endpoint, r.region, r.url, r.host, r.webDAVURL, r.accountName⟩

/-- Neither the database nor the role has a part in the location. -/
theorem renderReplica_location (b b' : CredentialBuilder) (duration : DurationString)
    (replica : ReplicaSpec) : (renderReplica b duration replica).1.location =
      (renderReplica b' duration replica).1.location := by
  unfold renderReplica
  cases replica.type with
  | s3 => cases replica.s3 <;> simp only [Option.elim, renderS3, ReplicaYAML.location]
  | gcs => cases replica.gcs <;> simp only [Option.elim, renderGCS, ReplicaYAML.location]
  | azure => cases replica.azure <;> simp only [Option.elim, renderAzure, ReplicaYAML.location]
  | file => cases replica.file <;> simp only [Option.elim, renderFile, ReplicaYAML.location]
  | nats => cases replica.nats <;> simp only [Option.elim, renderNATS, ReplicaYAML.location]
  | oss => cases replica.oss <;> simp only [Option.elim, renderOSS, ReplicaYAML.location]
  | sftp => cases replica.sftp <;> simp only [Option.elim, renderSFTP, ReplicaYAML.location]
  | webdav => cases replica.webdav <;> simp only [Option.elim, renderWebDAV, ReplicaYAML.location]
  | other _ => rfl

theorem destinationReplica_location (L : Library) (db db' : Database) {t t' : Replicate}
    (h : t.replica = t'.replica) : (destinationReplica L db t).1.location =
      (destinationReplica L db' t').1.location := by
  unfold destinationReplica
  rw [h]
  exact renderReplica_location _ _ _ _

/-- Bindings that name one replica under different paths got sections with different locations. -/
def SeparateLocations (L : Library) (s s' : LitestreamSpec) (r r' : RenderedConfig) : Prop :=
  ∀ b ∈ s.databases, ∀ b' ∈ s'.databases, ∀ t ∈ b.replicate, ∀ t' ∈ b'.replicate,
    t.replicaRef = t'.replicaRef → b.path ≠ b'.path →
      ∀ e ∈ r.entries L, e.path = b.path → ∀ e' ∈ r'.entries L, e'.path = b'.path →
        e.replica.location ≠ e'.replica.location

/-- No replica is named by two bindings with different paths. -/
def ReplicaPerPath (s s' : LitestreamSpec) : Prop :=
  ∀ d ∈ replicationDestinations s, ∀ d' ∈ replicationDestinations s',
    d.replicaRef = d'.replicaRef → d = d'

theorem mem_replicationDestinations {s : LitestreamSpec} {d : ReplicationDestination} :
    d ∈ replicationDestinations s ↔
      ∃ b ∈ s.databases, ∃ t ∈ b.replicate, d = ⟨t.replicaRef, b.path⟩ := by
  simp [replicationDestinations, List.mem_filterMap, eq_comm]

section Rendered

variable {P : Parsers} {R : Replicas} {L : Library} {s s' : LitestreamSpec} {i i' : Input}
  {r r' : RenderedConfig}

/-- The entry of a replicating binding. -/
theorem mem_entries (hL : L.Sound) (hi : resolve P R s = .ok i) (hr : render L i = .ok r)
    {b : DatabaseBinding} (hb : b ∈ s.databases) {t : ReplicateSpec} (ht : t ∈ b.replicate) :
    ∃ db replica, R t.replicaRef = some replica ∧
      ⟨b.path, (destinationReplica L db (replicate replica t)).1⟩ ∈ r.entries L := by
  obtain ⟨-, -, -, hdbs⟩ := resolve_ok hi
  obtain ⟨parts, hrend⟩ := render_ok hr
  obtain ⟨db, hdb, hres⟩ := forall₂_mem_left hdbs hb
  rcases hres.replicate with ⟨hnone, -⟩ | ⟨t', replica, hb', hR, -, hd⟩
  · rw [hnone] at ht
    cases ht
  · obtain rfl : t' = t := Option.some.inj (hb'.symm.trans ht)
    refine ⟨db, replica, hR, ?_⟩
    rw [hrend.entries_eq hL, List.mem_filterMap]
    refine ⟨db, hdb, ?_⟩
    rw [replicaEntry, hd, Option.map_some, hres.path]

/-- Sections have separate locations only if no two of the paths share a replica. -/
theorem separateLocations_iff (hL : L.Sound) (hi : resolve P R s = .ok i)
    (hr : render L i = .ok r) (hi' : resolve P R s' = .ok i') (hr' : render L i' = .ok r') :
    SeparateLocations L s s' r r' ↔ ReplicaPerPath s s' := by
  constructor
  · intro hsep d hd d' hd' href
    obtain ⟨b, hb, t, ht, rfl⟩ := mem_replicationDestinations.1 hd
    obtain ⟨b', hb', t', ht', rfl⟩ := mem_replicationDestinations.1 hd'
    have href : t.replicaRef = t'.replicaRef := href
    by_contra hne
    have hpath : b.path ≠ b'.path := fun h => hne (by rw [href, h])
    obtain ⟨db, replica, hR, he⟩ := mem_entries hL hi hr hb ht
    obtain ⟨db', replica', hR', he'⟩ := mem_entries hL hi' hr' hb' ht'
    obtain rfl : replica = replica' := by
      rw [href, hR'] at hR
      exact (Option.some.inj hR).symm
    exact hsep b hb b' hb' t ht t' ht' href hpath _ he rfl _ he' rfl
      (destinationReplica_location L db db' rfl)
  · intro hone b hb b' hb' t ht t' ht' href hpath
    have hd := hone _ (mem_replicationDestinations.2 ⟨b, hb, t, ht, rfl⟩)
      _ (mem_replicationDestinations.2 ⟨b', hb', t', ht', rfl⟩) href
    exact absurd (congrArg ReplicationDestination.path hd) hpath

end Rendered

/-! ## Two resources that share a replica -/

namespace Shared

def binding (name replica : String) : DatabaseBinding where
  name := name
  path := "/data/" ++ name ++ ".db"
  replicate := some { replicaRef := replica }

/-- A database that goes to the replica `backup`. -/
def spec (name : String) : LitestreamSpec := { databases := [binding name "backup"] }

/-- Two databases with a replica each. -/
def twoReplicas : LitestreamSpec := { databases := [binding "a" "backup", binding "b" "archive"] }

def docs : List (List DbEntry) := [[fileEntry "/data/a.db" "backup"],
  [fileEntry "/data/b.db" "backup"], [fileEntry "/data/b.db" "archive"],
  [fileEntry "/data/a.db" "backup", fileEntry "/data/b.db" "archive"]]

def library : Library := .listed docs

theorem library_sound : library.Sound := Library.listed_sound (by decide +kernel)

def rendered (s : LitestreamSpec) : Option RenderedConfig :=
  renderSpec .lenient (fileReplicas ["backup", "archive"]) library s

theorem rendered_entries :
    (rendered (spec "a")).map (·.entries library) = some [fileEntry "/data/a.db" "backup"] ∧
    (rendered (spec "b")).map (·.entries library) = some [fileEntry "/data/b.db" "backup"] ∧
    (rendered twoReplicas).map (·.entries library) =
      some [fileEntry "/data/a.db" "backup", fileEntry "/data/b.db" "archive"] := by
  decide +kernel

end Shared

/-- The handlers see two destinations, and both sections write to one. -/
theorem shared_location : ∃ r r', Shared.rendered (Shared.spec "a") = some r ∧
    Shared.rendered (Shared.spec "b") = some r' ∧
    shareReplicationDestination (Shared.spec "a") (Shared.spec "b") = false ∧
    ¬ SeparateLocations Shared.library (Shared.spec "a") (Shared.spec "b") r r' := by
  obtain ⟨r, hr, he⟩ := Option.map_eq_some_iff.1 Shared.rendered_entries.1
  obtain ⟨r', hr', he'⟩ := Option.map_eq_some_iff.1 Shared.rendered_entries.2.1
  refine ⟨r, r', hr, hr', by decide, fun h => ?_⟩
  exact h (Shared.binding "a" "backup") (List.mem_singleton_self _) (Shared.binding "b" "backup")
    (List.mem_singleton_self _) _ rfl _ rfl rfl (by decide)
    (fileEntry "/data/a.db" "backup") (by simp [he]) rfl
    (fileEntry "/data/b.db" "backup") (by simp [he']) rfl rfl

theorem separateLocations_twoReplicas : ∃ r, Shared.rendered Shared.twoReplicas = some r ∧
    SeparateLocations Shared.library Shared.twoReplicas Shared.twoReplicas r r := by
  obtain ⟨r, hr, -⟩ := Option.map_eq_some_iff.1 Shared.rendered_entries.2.2
  obtain ⟨i, hi, hri⟩ := renderSpec_eq_some hr
  exact ⟨r, hr, (separateLocations_iff Shared.library_sound hi hri hi hri).2
    (by unfold ReplicaPerPath; decide)⟩

end Controller.Config
