import CloudClient.Proofs.Json.OtherMembers
import CloudClient.Resource.Cluster
import CloudClient.Resource.Deployment
import CloudClient.Resource.Instance
import CloudClient.Resource.Volume

/-!
Fields that a provider adds to what is modelled. They are kept under their names and written back,
and none of them is taken for a field of the record.
-/

namespace CloudClient

open Json

theorem Instance.makes : Instance.shape.Makes fun f => ∀ m, (f m).extra = m := by
  unfold Instance.shape
  repeat refine .and ?_
  exact .of (by intros; rfl)

theorem Volume.makes : Volume.shape.Makes fun f => ∀ m, (f m).extra = m := by
  unfold Volume.shape
  repeat refine .and ?_
  exact .of (by intros; rfl)

theorem Cluster.makes : Cluster.shape.Makes fun f => ∀ m, (f m).extra = m := by
  unfold Cluster.shape
  repeat refine .and ?_
  exact .of (by intros; rfl)

theorem VolumeOffer.makes : VolumeOffer.shape.Makes fun f => ∀ m, (f m).extra = m :=
  .and <| .and <| .and <| .of fun _ _ _ _ => rfl

theorem ScalingTriggers.makes : ScalingTriggers.shape.Makes fun f => ∀ m, (f m).extra = m :=
  .and <| .and <| .and <| .of fun _ _ _ _ => rfl

/-- Whatever an object is read as that may have more members than are modelled, all others are kept,
each with the last of its values; and all are written again, each of them once. -/
theorem provider_fields_kept :
    Instance.codec.KeepsOthers ["id", "instance_type", "image", "price_per_hour", "hostname",
        "description", "ip", "status", "created_at", "ssh_key_ids", "cpu", "gpu", "memory",
        "gpu_memory", "storage", "location", "os_volume_id", "startup_script_id", "is_spot",
        "contract", "pricing"] (·.extra) ∧
      Volume.codec.KeepsOthers ["id", "instance_id", "name", "created_at", "status", "size",
        "is_os_volume", "target", "type", "location", "pseudo_path", "mount_command", "contract",
        "base_hourly_cost", "monthly_price", "currency"] (·.extra) ∧
      Cluster.codec.KeepsOthers ["id", "hostname", "description", "status", "cluster_type",
        "image", "location", "price_per_hour", "created_at", "ip", "ssh_key_ids",
        "worker_nodes"] (·.extra) ∧
      VolumeOffer.codec.KeepsOthers ["type", "price", "is_shared_fs"] (·.extra) ∧
      ScalingTriggers.codec.KeepsOthers ["queue_load", "cpu_utilization",
        "gpu_utilization"] (·.extra) :=
  ⟨keepsOthers_openRecord (s := Instance.shape) (by decide) Instance.makes,
    keepsOthers_openRecord (s := Volume.shape) (by decide) Volume.makes,
    keepsOthers_openRecord (s := Cluster.shape) (by decide) Cluster.makes,
    keepsOthers_openRecord (s := VolumeOffer.shape) (by decide) VolumeOffer.makes,
    keepsOthers_openRecord (s := ScalingTriggers.shape) (by decide) ScalingTriggers.makes⟩

/-- A volume with two fields that are not modelled, one of them twice. -/
def Volume.reported : Bytes :=
  (Json.obj [("zone", .ofUInt32 3), ("id", .str "vol-1"), ("iops", .ofUInt32 1000),
    ("name", .str "data"), ("status", .str "attached"), ("size", .ofUInt32 50),
    ("type", .str "NVMe"), ("iops", .ofUInt32 2000)]).encode

/-- An instance with a field that is modelled for volumes only, twice. -/
def Instance.reported : Bytes :=
  (Json.obj [("type", .str "spot"), ("id", .str "i-1"), ("instance_type", .str "1V100.6V"),
    ("hostname", .str "node"), ("status", .str "running"), ("is_spot", .bool true),
    ("type", .str "dynamic")]).encode

/-- What is read of a document, with the text of all values that are not modelled. -/
def Json.Codec.othersOf {α : Type} (c : Codec α) (others : α → List (String × Json))
    (body : Bytes) : Option (List (String × String)) :=
  (c.decode levelLimit (Json.read body).1).toOption.map fun x =>
    (others x).map fun m => (m.1, m.2.render)

theorem provider_fields_kept_of_reported :
    (∃ v, Volume.codec.decode levelLimit (Json.read Volume.reported).1 = .ok v ∧
      v.extra.map (fun m => (m.1, m.2.render)) = [("iops", "2000"), ("zone", "3")] ∧
      Volume.codec.Retains ["id", "instance_id", "name", "created_at", "status", "size",
        "is_os_volume", "target", "type", "location", "pseudo_path", "mount_command", "contract",
        "base_hourly_cost", "monthly_price", "currency"] (·.extra) levelLimit
        (Json.read Volume.reported).1 v) ∧
    ∃ i, Instance.codec.decode levelLimit (Json.read Instance.reported).1 = .ok i ∧
      i.extra.map (fun m => (m.1, m.2.render)) = [("type", "\"dynamic\"")] ∧
      Instance.codec.Retains ["id", "instance_type", "image", "price_per_hour", "hostname",
        "description", "ip", "status", "created_at", "ssh_key_ids", "cpu", "gpu", "memory",
        "gpu_memory", "storage", "location", "os_volume_id", "startup_script_id", "is_spot",
        "contract", "pricing"] (·.extra) levelLimit (Json.read Instance.reported).1 i := by
  have hread {α : Type} {c : Codec α} {others : α → List (String × Json)} {body : Bytes}
      {kept : List (String × String)} (h : c.othersOf others body = some kept) :
      ∃ x, c.decode levelLimit (Json.read body).1 = .ok x ∧
        (others x).map (fun m => (m.1, m.2.render)) = kept := by
    obtain ⟨x, hx, hkept⟩ := Option.map_eq_some_iff.1 h
    exact ⟨x, toOption_eq_some_iff.1 hx, hkept⟩
  obtain ⟨v, hv, hvolume⟩ := hread
    (show Volume.codec.othersOf (·.extra) Volume.reported =
      some [("iops", "2000"), ("zone", "3")] by decide +kernel)
  obtain ⟨i, hi, hinstance⟩ := hread
    (show Instance.codec.othersOf (·.extra) Instance.reported =
      some [("type", "\"dynamic\"")] by decide +kernel)
  exact ⟨⟨v, hv, hvolume, provider_fields_kept.2.1 _ _ v hv⟩,
    i, hi, hinstance, provider_fields_kept.1 _ _ i hi⟩

end CloudClient
