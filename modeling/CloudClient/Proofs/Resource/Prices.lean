import CloudClient.Proofs.Json.Prices
import CloudClient.Proofs.Resource.ProviderFields
import CloudClient.Proofs.Resource.Requests
import CloudClient.Resource.Account
import CloudClient.Resource.InstanceType

/-!
The prices of what is on offer, of what is in use, and of what is left to pay with. A price is
finite unless it is sent as a text that stands for no finite number.
-/

namespace CloudClient

open Json
open Json.Field

variable {depth : Nat}

/-! ### What carries no price -/

theorem Cpu.restores (c : Cpu) : Cpu.codec.Restores (depth + 1) c :=
  .record (by decide) rfl <| Shape.Carries.of
    |>.and (defaulted_carries (string_restores _))
    |>.and (defaulted_carries (uint32_restores _))

theorem Gpu.restores (g : Gpu) : Gpu.codec.Restores (depth + 1) g :=
  .record (by decide) rfl <| Shape.Carries.of
    |>.and (defaulted_carries (string_restores _))
    |>.and (defaulted_carries (uint32_restores _))

theorem Memory.restores (m : Memory) : Memory.codec.Restores (depth + 1) m :=
  .record (by decide) rfl <| Shape.Carries.of
    |>.and (defaulted_carries (string_restores _))
    |>.and (defaulted_carries (uint32_restores _))

theorem Storage.restores (s : Storage) : Storage.codec.Restores (depth + 1) s :=
  .record (by decide) rfl <| Shape.Carries.of
    |>.and (defaulted_carries (string_restores _))

theorem ClusterNode.restores (n : ClusterNode) : ClusterNode.codec.Restores (depth + 1) n :=
  .record (by decide) rfl <| Shape.Carries.of
    |>.and (required_carries (string_restores _))
    |>.and (required_carries (string_restores _))
    |>.and (defaulted_carries (string_restores _))
    |>.and (nullable_carries fun _ _ => string_restores _)

theorem InstanceStatus.restores (s : InstanceStatus) : InstanceStatus.codec.Restores depth s :=
  Choice.restores (by cases s <;> rfl)

theorem VolumeStatus.restores (s : VolumeStatus) : VolumeStatus.codec.Restores depth s :=
  Choice.restores (by cases s <;> rfl)

/-! ### The balance -/

def Balance.prices : List (Price Balance) :=
  [⟨0, "amount", fun b => some b.amount⟩]

theorem Balance.yields :
    Balance.shape.Yields fun source b => ∀ p ∈ Balance.prices, p.Goes source b :=
  .and <| .price required_priced <| .of fun _ _ hamount _ => List.forall_mem_singleton.2 hamount

theorem Balance.hasPrices : Balance.shape.HasPrices Balance.prices where
  names := by decide
  keys b := by simp [Balance.shape]
  written b := by simp [Balance.shape, prices]
  returns b h := by
    have hamount := List.forall_mem_singleton.1 h _ rfl
    exact Shape.Returns.of
      |>.and rfl (price_returns hamount).1
      |>.and rfl (string_restores _).returns

/-! ### What is on offer -/

def InstanceType.prices : List (Price InstanceType) :=
  [⟨2, "price_per_hour", fun t => some t.pricePerHour⟩, ⟨3, "spot_price", (·.spotPrice)⟩,
    ⟨4, "dynamic_price", (·.dynamicPrice)⟩, ⟨5, "max_dynamic_price", (·.maxDynamicPrice)⟩,
    ⟨6, "serverless_price", (·.serverlessPrice)⟩]

theorem InstanceType.yields :
    InstanceType.shape.Yields fun source t => ∀ p ∈ InstanceType.prices, p.Goes source t := by
  unfold InstanceType.shape
  iterate 10 refine .and ?_
  iterate 4 refine .price nullable_priced ?_
  refine .price required_priced ?_
  refine .and <| .and <| .of ?_
  intro source _ _ _ hhour _ hspot _ hdynamic _ hmost _ hserverless _ _ _ _ _ _ _ _ _ _
  simp only [prices, List.forall_mem_cons]
  exact ⟨hhour, hspot, hdynamic, hmost, hserverless, List.forall_mem_nil _⟩

theorem InstanceType.hasPrices : InstanceType.shape.HasPrices InstanceType.prices where
  names := by decide
  keys t := by simp [shape]
  written t := by simp +contextual [shape, prices]
  returns t h := by
    simp only [prices, List.forall_mem_cons] at h
    obtain ⟨hhour, hspot, hdynamic, hmost, hserverless, _⟩ := h
    exact Shape.Returns.of
      |>.and rfl (string_restores _).returns
      |>.and rfl (string_restores _).returns
      |>.and rfl (price_returns (hhour _ rfl)).1
      |>.and rfl (optional_returns fun x hx => price_returns (hspot x hx))
      |>.and rfl (optional_returns fun x hx => price_returns (hdynamic x hx))
      |>.and rfl (optional_returns fun x hx => price_returns (hmost x hx))
      |>.and rfl (optional_returns fun x hx => price_returns (hserverless x hx))
      |>.and rfl (string_restores _).returns
      |>.and rfl (Cpu.restores _).returns
      |>.and rfl (Gpu.restores _).returns
      |>.and rfl (Memory.restores _).returns
      |>.and rfl (Memory.restores _).returns
      |>.and rfl (Storage.restores _).returns
      |>.and rfl (optional_returns_of_restores fun _ _ => string_restores _)
      |>.and rfl (optional_returns_of_restores fun _ _ => string_restores _)
      |>.and rfl (optional_returns_of_restores fun _ _ => string_restores _)
      |>.and rfl (strings_restores _).returns

def ClusterType.prices : List (Price ClusterType) :=
  [⟨2, "price_per_hour", (·.pricePerHour)⟩]

theorem ClusterType.yields :
    ClusterType.shape.Yields fun source t => ∀ p ∈ ClusterType.prices, p.Goes source t := by
  unfold ClusterType.shape
  iterate 4 refine .and ?_
  refine .price nullable_priced <| .and <| .and <| .of ?_
  intro source _ _ _ hhour _ _ _ _
  exact List.forall_mem_singleton.2 hhour

theorem ClusterType.hasPrices : ClusterType.shape.HasPrices ClusterType.prices where
  names := by decide
  keys t := by simp [shape]
  written t := by simp +contextual [shape, prices]
  returns t h := by
    have hhour := List.forall_mem_singleton.1 h
    exact Shape.Returns.of
      |>.and rfl (string_restores _).returns
      |>.and rfl (string_restores _).returns
      |>.and rfl (optional_returns fun x hx => price_returns (hhour x hx))
      |>.and rfl (optional_returns_of_restores fun _ _ => string_restores _)
      |>.and rfl (optional_returns_of_restores fun _ _ => string_restores _)
      |>.and rfl (strings_restores _).returns
      |>.and rfl (strings_restores _).returns

def VolumePrice.prices : List (Price VolumePrice) :=
  [⟨0, "price_per_month_per_gb", (·.perMonthPerGb)⟩, ⟨1, "cps_per_gb", (·.perHourPerGb)⟩]

theorem VolumePrice.yields :
    VolumePrice.shape.Yields fun source v => ∀ p ∈ VolumePrice.prices, p.Goes source v := by
  refine .and <| .price nullable_priced <| .price nullable_priced <| .of ?_
  intro source _ hmonth _ hhour _
  exact List.forall_mem_cons.2 ⟨hmonth, List.forall_mem_singleton.2 hhour⟩

theorem VolumePrice.hasPrices : VolumePrice.shape.HasPrices VolumePrice.prices where
  names := by decide
  keys v := by simp [shape]
  written v := by simp +contextual [shape, prices]
  returns v h := by
    obtain ⟨hmonth, hhour⟩ := List.forall_mem_cons.1 h
    have hhour := List.forall_mem_singleton.1 hhour
    exact Shape.Returns.of
      |>.and rfl (optional_returns fun x hx => price_returns (hmonth x hx))
      |>.and rfl (optional_returns fun x hx => price_returns (hhour x hx))
      |>.and rfl (optional_returns_of_restores fun _ _ => string_restores _)

/-! ### What is in use -/

def Instance.prices : List (Price Instance) :=
  [⟨3, "price_per_hour", fun i => some i.pricePerHour⟩]

theorem Instance.yields : Instance.shape.Yields fun source f =>
    ∀ extra, ∀ p ∈ Instance.prices, p.Goes source (f extra) := by
  unfold Instance.shape
  iterate 17 refine .and ?_
  refine .price (defaulted_priced rfl) <| .and <| .and <| .and <| .of ?_
  intro source _ _ _ _ hhour _ _ _ _ _ _ _ _ _ _ _ _ _ _ _ _ _ extra
  exact List.forall_mem_singleton.2 hhour

theorem Instance.hasPrices : Instance.shape.HasPrices Instance.prices where
  names := by decide
  keys i := by simp [shape]
  written i := by simp [shape, prices]
  returns i h := by
    have hhour := List.forall_mem_singleton.1 h _ rfl
    exact Shape.Returns.of
      |>.and rfl (string_restores _).returns
      |>.and rfl (string_restores _).returns
      |>.and rfl (string_restores _).returns
      |>.and rfl (price_returns hhour).1
      |>.and rfl (string_restores _).returns
      |>.and rfl (string_restores _).returns
      |>.and rfl (optional_returns_of_restores fun _ _ => string_restores _)
      |>.and rfl (InstanceStatus.restores _).returns
      |>.and rfl (optional_returns_of_restores fun _ _ => string_restores _)
      |>.and rfl (strings_restores _).returns
      |>.and rfl (Cpu.restores _).returns
      |>.and rfl (Gpu.restores _).returns
      |>.and rfl (Memory.restores _).returns
      |>.and rfl (Memory.restores _).returns
      |>.and rfl (Storage.restores _).returns
      |>.and rfl (string_restores _).returns
      |>.and rfl (optional_returns_of_restores fun _ _ => string_restores _)
      |>.and rfl (optional_returns_of_restores fun _ _ => string_restores _)
      |>.and rfl (boolean_restores _).returns
      |>.and rfl (optional_returns_of_restores fun _ _ => Contract.restores _)
      |>.and rfl (optional_returns_of_restores fun _ _ => Pricing.restores _)

def Cluster.prices : List (Price Cluster) :=
  [⟨7, "price_per_hour", (·.pricePerHour)⟩]

theorem Cluster.yields : Cluster.shape.Yields fun source f =>
    ∀ extra, ∀ p ∈ Cluster.prices, p.Goes source (f extra) := by
  unfold Cluster.shape
  iterate 4 refine .and ?_
  refine .price nullable_priced ?_
  iterate 7 refine .and ?_
  refine .of ?_
  intro source _ _ _ _ _ _ _ _ hhour _ _ _ _ extra
  exact List.forall_mem_singleton.2 hhour

theorem Cluster.hasPrices : Cluster.shape.HasPrices Cluster.prices where
  names := by decide
  keys c := by simp [shape]
  written c := by simp +contextual [shape, prices]
  returns c h := by
    have hhour := List.forall_mem_singleton.1 h
    exact Shape.Returns.of
      |>.and rfl (string_restores _).returns
      |>.and rfl (string_restores _).returns
      |>.and rfl (string_restores _).returns
      |>.and rfl (string_restores _).returns
      |>.and rfl (string_restores _).returns
      |>.and rfl (string_restores _).returns
      |>.and rfl (string_restores _).returns
      |>.and rfl (optional_returns fun x hx => price_returns (hhour x hx))
      |>.and rfl (optional_returns_of_restores fun _ _ => string_restores _)
      |>.and rfl (optional_returns_of_restores fun _ _ => string_restores _)
      |>.and rfl (strings_restores _).returns
      |>.and rfl (list_restores fun _ _ => ClusterNode.restores _).returns

def Volume.prices : List (Price Volume) :=
  [⟨13, "base_hourly_cost", (·.baseHourlyCost)⟩, ⟨14, "monthly_price", (·.monthlyPrice)⟩]

theorem Volume.yields : Volume.shape.Yields fun source f =>
    ∀ extra, ∀ p ∈ Volume.prices, p.Goes source (f extra) := by
  unfold Volume.shape
  refine .and <| .price nullable_priced <| .price nullable_priced ?_
  iterate 13 refine .and ?_
  refine .of ?_
  intro source _ _ _ _ _ _ _ _ _ _ _ _ _ _ hhour _ hmonth _ extra
  exact List.forall_mem_cons.2 ⟨hhour, List.forall_mem_singleton.2 hmonth⟩

theorem Volume.hasPrices : Volume.shape.HasPrices Volume.prices where
  names := by decide
  keys v := by simp [shape]
  written v := by simp +contextual [shape, prices]
  returns v h := by
    obtain ⟨hhour, hmonth⟩ := List.forall_mem_cons.1 h
    have hmonth := List.forall_mem_singleton.1 hmonth
    exact Shape.Returns.of
      |>.and rfl (string_restores _).returns
      |>.and rfl (optional_returns_of_restores fun _ _ => string_restores _)
      |>.and rfl (string_restores _).returns
      |>.and rfl (optional_returns_of_restores fun _ _ => string_restores _)
      |>.and rfl (VolumeStatus.restores _).returns
      |>.and rfl (uint32_restores _).returns
      |>.and rfl (boolean_restores _).returns
      |>.and rfl (optional_returns_of_restores fun _ _ => string_restores _)
      |>.and rfl (VolumeType.restores _).returns
      |>.and rfl (string_restores _).returns
      |>.and rfl (optional_returns_of_restores fun _ _ => string_restores _)
      |>.and rfl (optional_returns_of_restores fun _ _ => string_restores _)
      |>.and rfl (optional_returns_of_restores fun _ _ => Contract.restores _)
      |>.and rfl (optional_returns fun x hx => price_returns (hhour x hx))
      |>.and rfl (optional_returns fun x hx => price_returns (hmonth x hx))
      |>.and rfl (optional_returns_of_restores fun _ _ => string_restores _)

/-! ### All of them -/

/-- What is read with prices in it, and its prices. -/
inductive Billed : {α : Type} → Codec α → List (Price α) → Prop
  | ofBalance : Billed Balance.codec Balance.prices
  | ofInstanceType : Billed InstanceType.codec InstanceType.prices
  | ofInstance : Billed Instance.codec Instance.prices
  | ofCluster : Billed Cluster.codec Cluster.prices
  | ofClusterType : Billed ClusterType.codec ClusterType.prices
  | ofVolume : Billed Volume.codec Volume.prices
  | ofVolumePrice : Billed VolumePrice.codec VolumePrice.prices

/-- Whatever text is read as a record with prices: each price is finite exactly when no text stands
in its place, after trimming, that names an infinity or no number, or one past all finite ones. A
finite price is written as a number, any other one is not; and where all prices are finite, what is
written is read again. -/
theorem prices_finite_iff {α : Type} {c : Codec α} {prices : List (Price α)}
    (hbilled : Billed c prices) : c.Priced prices := by
  cases hbilled with
  | ofBalance => exact Balance.hasPrices.record Balance.yields _
  | ofInstanceType => exact InstanceType.hasPrices.record InstanceType.yields _
  | ofInstance => exact Instance.hasPrices.openRecord Instance.makes Instance.yields _
  | ofCluster => exact Cluster.hasPrices.openRecord Cluster.makes Cluster.yields _
  | ofClusterType => exact ClusterType.hasPrices.record ClusterType.yields _
  | ofVolume => exact Volume.hasPrices.openRecord Volume.makes Volume.yields _
  | ofVolumePrice => exact VolumePrice.hasPrices.record VolumePrice.yields _

/-- A balance that is sent as a text with blanks. -/
def Balance.padded : Bytes :=
  (Json.obj [("amount", .str " +12.50 "), ("currency", .str "usd")]).encode

theorem prices_finite_of_padded :
    ∃ b root, Balance.codec.read Balance.padded = .ok b ∧
      b.amount = .ofDecimal false 125 (-1) ∧
      (∀ n ∈ (Json.read Balance.padded).1.field? 0 "amount", ¬ n.Boundless) ∧
      Json.read (Balance.codec.write b) = (root, false) ∧
      (∃ k, root.field? 0 "amount" = some (.number k)) ∧
      ∃ b', Balance.codec.read (Balance.codec.write b) = .ok b' := by
  have hclosed : (Balance.codec.read Balance.padded).toOption =
      some ⟨.ofDecimal false 125 (-1), "usd"⟩ ∧
      (Binary64.ofDecimal false 125 (-1)).isFinite = true := by
    decide +kernel
  generalize Binary64.ofDecimal false 125 (-1) = amount at hclosed ⊢
  obtain ⟨hoption, hamount⟩ := hclosed
  have hread := toOption_eq_some_iff.1 hoption
  obtain ⟨hiff, root, hroot, hnumbers, hagain⟩ := prices_finite_iff .ofBalance _ _ hread
  have hfinite : ∀ p ∈ Balance.prices, p.Finite ⟨amount, "usd"⟩ :=
    List.forall_mem_singleton.2 fun x hx => Option.some.inj hx ▸ hamount
  exact ⟨_, root, hread, rfl, (hiff _ List.mem_cons_self).1 (hfinite _ List.mem_cons_self), hroot,
    (hnumbers _ List.mem_cons_self _ rfl).2 hamount, hagain hfinite⟩

/-- A balance that is sent as a text past all finite numbers. -/
def Balance.excessive : Bytes :=
  (Json.obj [("amount", .str "1e999"), ("currency", .str "usd")]).encode

/-- It is read as infinite and written as `null`, which is not read again. -/
theorem amount_of_excessive :
    Balance.codec.read Balance.excessive = .ok ⟨.infinite false, "usd"⟩ ∧
      Balance.codec.write ⟨.infinite false, "usd"⟩ =
        (Json.obj [("amount", .null), ("currency", .str "usd")]).encode ∧
      ∀ b, Balance.codec.read (Balance.codec.write ⟨.infinite false, "usd"⟩) ≠ .ok b := by
  have hclosed : (Balance.codec.read Balance.excessive).toOption =
        some ⟨.infinite false, "usd"⟩ ∧
      Balance.codec.write ⟨.infinite false, "usd"⟩ =
        (Json.obj [("amount", .null), ("currency", .str "usd")]).encode ∧
      (Balance.codec.read (Balance.codec.write ⟨.infinite false, "usd"⟩)).toOption = none := by
    decide +kernel
  obtain ⟨hread, hwrite, hagain⟩ := hclosed
  refine ⟨toOption_eq_some_iff.1 hread, hwrite, fun b h => ?_⟩
  rw [h] at hagain
  cases hagain

end CloudClient
