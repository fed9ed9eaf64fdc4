import OpenMetrics.Library.Text
import OpenMetrics.Proxy.Forward

/-! The end of `process_proxy_payload` (`proxy/src/forward/forward.rs`) -/

namespace OpenMetrics.Proxy
open Library

/-- A status that `http::StatusCode` can hold. -/
structure StatusCode where
  code : UInt16
  low : 100 ≤ code.toNat
  high : code.toNat ≤ 999

inductive UpstreamResult where
  | joinError
  | transportError
  | response (status : StatusCode)

structure Reply where
  body : String
  status : UInt16
  deriving DecidableEq

def processUpstreamResponse : UpstreamResult → Except UInt16 UInt16
  | .response status => .ok status.code
  | .transportError => .error 400
  | .joinError => .error 500

def accumulateErrors (acc : UInt16) : Except UInt16 UInt16 → UInt16
  | .error _ => acc + 1
  | .ok code =>
      let codeString := code.toNat.repr
      if Text.startsWith "2" codeString ∨ Text.startsWith "4" codeString then acc else acc + 1

/-- `upstream` is what `buffer_unordered` yields for the requests, in the order in which they
complete. `decoded` is the batch, or the error of Snappy or of protobuf. -/
def processProxyPayload (order : HashOrder String) (tenantLabels allowListedTenants : List String)
    (doesAllowList : Bool) (replicateTo : List String) (upstream : TenantData → List UpstreamResult)
    (decoded : Except String WriteRequest) : Reply :=
  match decoded with
  | .error e => { body := e, status := 400 }
  | .ok writeRequest =>
      let tenantData :=
        writeRequests order tenantLabels allowListedTenants doesAllowList replicateTo writeRequest
      let responses := (upstream tenantData).map processUpstreamResponse
      let numOfFailures := responses.foldl accumulateErrors 0
      { body := numOfFailures.toNat.repr
        status := if numOfFailures = 0 then 200 else 500 }

def Failed : UpstreamResult → Prop
  | .joinError | .transportError => True
  | .response status => ¬ (200 ≤ status.code.toNat ∧ status.code.toNat ≤ 299) ∧
      ¬ (400 ≤ status.code.toNat ∧ status.code.toNat ≤ 499)

instance : DecidablePred Failed
  | .joinError | .transportError => inferInstanceAs (Decidable True)
  | .response _ => inferInstanceAs (Decidable (_ ∧ _))

theorem digits_of_status {n : Nat} (low : 100 ≤ n) (high : n ≤ 999) :
    n.repr.toList = [(n / 100).digitChar, (n / 10 % 10).digitChar, (n % 10).digitChar] := by
  have tens : n / 10 / 10 = n / 100 := by omega
  have leading : n / 100 < 10 := by omega
  rw [Nat.toList_repr, Nat.toDigits_of_base_le (by omega) (by omega),
    Nat.toDigits_of_base_le (by omega) (by omega), tens, Nat.toDigits_of_lt_base leading]
  rfl

theorem accumulateErrors_eq (acc : UInt16) (result : UpstreamResult) :
    accumulateErrors acc (processUpstreamResponse result) =
      if Failed result then acc + 1 else acc := by
  cases result with
  | joinError => rfl
  | transportError => rfl
  | response status =>
      obtain ⟨code, low, high⟩ := status
      have digits := digits_of_status low high
      have success : Text.startsWith "2" code.toNat.repr ↔ code.toNat / 100 = 2 := by
        simp [Text.startsWith, digits]
      have ignored : Text.startsWith "4" code.toNat.repr ↔ code.toNat / 100 = 4 := by
        simp [Text.startsWith, digits]
      have failed : Failed (.response ⟨code, low, high⟩) ↔
          ¬ (code.toNat / 100 = 2 ∨ code.toNat / 100 = 4) := by
        simp only [Failed]
        omega
      simp only [processUpstreamResponse, accumulateErrors, success, ignored, failed]
      split_ifs <;> rfl

theorem accumulate_all (results : List UpstreamResult) (acc : UInt16) :
    (results.map processUpstreamResponse).foldl accumulateErrors acc =
      acc + UInt16.ofNat (results.countP fun result => Failed result) := by
  induction results generalizing acc with
  | nil => simp
  | cons result rest ih =>
      rw [List.map_cons, List.foldl_cons, ih, accumulateErrors_eq, List.countP_cons]
      by_cases failed : Failed result
      · simp only [failed, if_true, decide_true, UInt16.ofNat_add]
        ac_rfl
      · simp [failed]

def failures (tenantData : TenantData) (outcome : String → UpstreamResult) : Nat :=
  (tenantData.keys.filter fun tenantId => Failed (outcome tenantId)).card

theorem countP_failed (order : HashOrder String) (tenantData : TenantData)
    (outcome : String → UpstreamResult) :
    ((order.keys tenantData.keys).map outcome).countP (fun result => Failed result) =
      failures tenantData outcome := by
  have nodup := (order.nodup_keys tenantData.keys).filter fun tenantId => Failed (outcome tenantId)
  rw [List.countP_map, List.countP_eq_length_filter, failures]
  refine (List.toFinset_card_of_nodup nodup).symm.trans (congrArg Finset.card ?_)
  ext tenantId
  simp

def Reports (reply : Reply) (failed : Nat) : Prop :=
  reply.body = failed.repr ∧ (reply.status = 200 ↔ failed = 0)

theorem repr_inj {m n : Nat} (same : m.repr = n.repr) : m = n := by
  have digits := congrArg (fun s : String => Nat.ofDigitChars 10 s.toList 0) same
  simpa [Nat.toList_repr, Nat.ofDigitChars_ten_toDigits] using digits

section
variable {order : HashOrder String} {tenantLabels allowListedTenants replicateTo : List String}
  {doesAllowList : Bool} {writeRequest : WriteRequest} {upstream : TenantData → List UpstreamResult}

theorem reports_iff {tenantData : TenantData} {outcome : String → UpstreamResult}
    (built : writeRequests order tenantLabels allowListedTenants doesAllowList replicateTo
      writeRequest = tenantData)
    (yields : (upstream tenantData).Perm ((order.keys tenantData.keys).map outcome)) :
    Reports (processProxyPayload order tenantLabels allowListedTenants doesAllowList replicateTo
        upstream (.ok writeRequest)) (failures tenantData outcome) ↔
      failures tenantData outcome < 2 ^ 16 := by
  have count : ((upstream tenantData).map processUpstreamResponse).foldl accumulateErrors 0 =
      UInt16.ofNat (failures tenantData outcome) := by
    rw [accumulate_all, yields.countP_eq, countP_failed, UInt16.zero_add]
  have wrapped := UInt16.toNat_ofNat' (n := failures tenantData outcome)
  simp only [processProxyPayload, built, count, Reports, wrapped]
  generalize failures tenantData outcome = failed at wrapped
  constructor
  · intro reported
    have exact : failed % 2 ^ 16 = failed := repr_inj reported.1
    exact exact ▸ Nat.mod_lt _ (Nat.two_pow_pos 16)
  · intro fits
    have exact : failed % 2 ^ 16 = failed := Nat.mod_eq_of_lt fits
    have zero : UInt16.ofNat failed = 0 ↔ failed = 0 := by
      rw [← UInt16.toNat_inj, wrapped, exact]
      rfl
    refine ⟨by rw [exact], ?_⟩
    by_cases none : failed = 0
    · simp [none]
    · simp [zero, none]

end

theorem failures_reported_iff (order : HashOrder String)
    (tenantLabels allowListedTenants : List String) (doesAllowList : Bool)
    (replicateTo : List String) (writeRequest : WriteRequest)
    (outcome : String → UpstreamResult) (upstream : TenantData → List UpstreamResult) :
    let tenantData :=
      writeRequests order tenantLabels allowListedTenants doesAllowList replicateTo writeRequest
    (upstream tenantData).Perm ((order.keys tenantData.keys).map outcome) →
    (Reports (processProxyPayload order tenantLabels allowListedTenants doesAllowList replicateTo
        upstream (.ok writeRequest)) (failures tenantData outcome) ↔
      failures tenantData outcome < 2 ^ 16) :=
  fun yields => reports_iff rfl yields

theorem failures_reported_two_tenants :
    let order := HashOrder.sorted String
    let batch : List TimeSeries := [⟨[⟨"tenant_id", "a"⟩], []⟩, ⟨[⟨"tenant_id", "b"⟩], []⟩]
    let tenantData :=
      writeRequests order ["tenant_id"] ["a", "b"] true [] { timeseries := batch }
    let outcome : String → UpstreamResult := fun t => if t = "a" then .transportError else .joinError
    (([.joinError, .transportError] : List UpstreamResult).Perm
      ((order.keys tenantData.keys).map outcome)) ∧
    (Reports (processProxyPayload order ["tenant_id"] ["a", "b"] true []
        (fun _ => [.joinError, .transportError]) (.ok { timeseries := batch }))
        (failures tenantData outcome) ↔ failures tenantData outcome < 2 ^ 16) := by
  intro order batch tenantData outcome
  have built : (order.keys tenantData.keys).map outcome = [.transportError, .joinError] := by
    have keys : order.keys tenantData.keys = ["a", "b"] := by decide
    rw [keys]
    rfl
  have yields : ([.joinError, .transportError] : List UpstreamResult).Perm
      ((order.keys tenantData.keys).map outcome) := built ▸ List.Perm.swap _ _ _
  exact ⟨yields, failures_reported_iff order ["tenant_id"] ["a", "b"] true []
    { timeseries := batch } outcome (fun _ => [.joinError, .transportError]) yields⟩

theorem failures_of_labels (order : HashOrder String) {tenants : List String}
    (nodup : tenants.Nodup) {outcome : String → UpstreamResult} (fail : ∀ t, Failed (outcome t)) :
    failures (writeRequests order ["tenant_id"] tenants true []
      { timeseries := tenants.map fun t => ⟨[⟨"tenant_id", t⟩], []⟩ }) outcome = tenants.length := by
  rw [failures, Finset.filter_true_of_mem fun t _ => fail t, ← List.toFinset_card_of_nodup nodup]
  congr 1
  ext t
  rw [Finmap.mem_keys, mem_writeRequests, List.mem_toFinset]
  simp [copies, Names]

theorem failures_hidden_wrapped :
    ¬ ∀ (order : HashOrder String) (tenantLabels allowListedTenants : List String)
      (doesAllowList : Bool) (replicateTo : List String) (writeRequest : WriteRequest)
      (outcome : String → UpstreamResult) (upstream : TenantData → List UpstreamResult),
      let tenantData :=
        writeRequests order tenantLabels allowListedTenants doesAllowList replicateTo writeRequest
      (upstream tenantData).Perm ((order.keys tenantData.keys).map outcome) →
      Reports (processProxyPayload order tenantLabels allowListedTenants doesAllowList replicateTo
        upstream (.ok writeRequest)) (failures tenantData outcome) := by
  intro reports
  let order := HashOrder.sorted String
  obtain ⟨tenants, nodup, length⟩ : ∃ tenants : List String, tenants.Nodup ∧
      tenants.length = 2 ^ 16 :=
    ⟨(List.range (2 ^ 16)).map Nat.repr, List.nodup_range.map fun _ _ => repr_inj,
      by rw [List.length_map, List.length_range]⟩
  let outcome : String → UpstreamResult := fun _ => .transportError
  let upstream : TenantData → List UpstreamResult := fun tenantData =>
    (order.keys tenantData.keys).map outcome
  have fail (t : String) : Failed (outcome t) := trivial
  have reported := reports order ["tenant_id"] tenants true []
    { timeseries := tenants.map fun t => ⟨[⟨"tenant_id", t⟩], []⟩ } outcome upstream
    (List.Perm.refl _)
  rw [reports_iff rfl (List.Perm.refl _), failures_of_labels order nodup fail, length] at reported
  exact lt_irrefl _ reported

end OpenMetrics.Proxy
