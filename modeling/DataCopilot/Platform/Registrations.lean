import Mathlib.Data.List.DropRight
import Mathlib.Data.List.Nodup
import Mathlib.Data.List.Perm.Subperm
import DataCopilot.Library.Text
import DataCopilot.Platform.DataSources

/-! One data source a tenant and registration: what a registration settles, and how two of them
can come to register the same source. -/
namespace DataCopilot.Platform
open CheckInsert

section Trim

theorem trim_eq (s : String) : (trim s).toList = (s.toList.dropWhile (· ≤ ' ')).rdropWhile (· ≤ ' ') := by
  rw [trim, String.toList_ofList]
  rfl

theorem dropWhile_trimmed {α : Type} (p : α → Bool) (l : List α) :
    ((l.dropWhile p).rdropWhile p).dropWhile p = (l.dropWhile p).rdropWhile p := by
  rw [List.dropWhile_eq_self_iff]
  intro hl
  have hpre := List.rdropWhile_prefix p (l.dropWhile p)
  have hlong : 0 < (l.dropWhile p).length := Nat.lt_of_lt_of_le hl hpre.length_le
  have hget := hpre.getElem hl
  rw [hget]
  have hhead := List.head_dropWhile_not p (List.ne_nil_of_length_pos hlong)
  rw [List.head_eq_getElem] at hhead
  rw [hhead]
  decide

theorem trim_trim (s : String) : trim (trim s) = trim s := by
  apply String.toList_inj.mp
  rw [trim_eq, trim_eq, dropWhile_trimmed, List.rdropWhile_idempotent]

end Trim

section FreeName
open DevelopmentBootstrap

theorem numbered_inj {m n : Nat} (h : numbered m = numbered n) : m = n := by
  have happend : ∀ a b : String, a ++ toString m ++ b = a ++ toString n ++ b → m = n := by
    intro a b h
    exact Text.toString_nat_inj ((String.append_right_inj a).mp ((String.append_left_inj b).mp h))
  exact happend _ _ h

/-- A loop that ends on a name in use has tried one name a round, all in use and all different. -/
theorem freeName_mem {existingNames : List String} {fuel suffix : Nat} {name : String}
    (h : freeName existingNames fuel suffix name ∈ existingNames) :
    name ∈ existingNames ∧ ∀ n, suffix ≤ n → n < suffix + fuel → numbered n ∈ existingNames := by
  induction fuel generalizing suffix name with
  | zero => exact ⟨h, fun n hn hlt => absurd hlt (by omega)⟩
  | succ fuel ih =>
    rw [freeName] at h
    by_cases hm : name ∈ existingNames
    · rw [if_pos hm] at h
      obtain ⟨hnext, hrest⟩ := ih h
      refine ⟨hm, fun n hn hlt => ?_⟩
      by_cases he : n = suffix
      · exact he ▸ hnext
      · exact hrest n (by omega) (by omega)
    · rw [if_neg hm] at h
      exact absurd h hm

theorem freeName_free (existingNames : List String) (suffix : Nat) (name : String) :
    freeName existingNames (existingNames.length + 1) suffix name ∉ existingNames := by
  intro h
  obtain ⟨-, hall⟩ := freeName_mem h
  have hsub : (List.range' suffix (existingNames.length + 1)).map numbered ⊆ existingNames := by
    intro x hx
    obtain ⟨n, hn, hnx⟩ := List.mem_map.mp hx
    rw [List.mem_range'_1] at hn
    exact hnx ▸ hall n hn.1 hn.2
  have hnodup : ((List.range' suffix (existingNames.length + 1)).map numbered).Nodup :=
    List.Nodup.map (fun _ _ => numbered_inj) (List.nodup_range' 1)
  have hlen := (List.subperm_of_subset hnodup hsub).length_le
  rw [List.length_map, List.length_range'] at hlen
  omega

end FreeName

section Matches
variable {J : JavaCase} {R R' : DataSourceRegistrationProperties} {a b : DataSource}
open DataSourceRegistrationProperties

theorem matchesValues_iff {host database schema secretRef : String} {port : Int} :
    R.matchesValues J host port database schema secretRef = true ↔
      ((trim host).toList.map J.fold = (trim R.demoHost).toList.map J.fold ∧ port = R.demoPort) ∧
        trim database = trim R.demoDatabaseName ∧ trim schema = trim R.demoAllowedSchema ∧
        trim secretRef = trim R.demoSecretRef := by
  simp only [matchesValues, equalsIgnoreCase, Bool.and_eq_true, decide_eq_true_eq, and_assoc]

/-- Two sources that match one registration match the same ones. -/
theorem matches_alike (ha : R.matchesSource J a = true) (hb : R.matchesSource J b = true)
    (h : R'.matchesSource J a = true) : R'.matchesSource J b = true := by
  simp only [matchesSource, Bool.and_eq_true, matchesValues_iff] at ha hb h ⊢
  obtain ⟨-, ⟨hhost, hport⟩, hdatabase, hschema, hsecret⟩ := ha
  obtain ⟨henabled, ⟨hhost', hport'⟩, hdatabase', hschema', hsecret'⟩ := hb
  obtain ⟨-, ⟨hh, hp⟩, hd, hs, hsr⟩ := h
  refine ⟨henabled, ⟨?_, ?_⟩, ?_, ?_, ?_⟩
  · rw [hhost', ← hhost, hh]
  · rw [hport', ← hport, hp]
  · rw [hdatabase', ← hdatabase, hd]
  · rw [hschema', ← hschema, hs]
  · rw [hsecret', ← hsecret, hsr]

theorem mem_findAllByTenantId {tenantId : UUID} {rows : List DataSource} :
    a ∈ findAllByTenantId tenantId rows ↔ a ∈ rows ∧ a.tenantId = tenantId := by
  rw [findAllByTenantId, List.mem_filter, decide_eq_true_eq]

theorem mem_list {tenantId : UUID} {rows : List DataSource} :
    a ∈ DataSourceManagementService.list J R tenantId rows ↔
      a ∈ rows ∧ a.tenantId = tenantId ∧ R.matchesSource J a = true := by
  rw [DataSourceManagementService.list, List.mem_filter, mem_findAllByTenantId, and_assoc]

end Matches

section Verdicts
variable {J : JavaCase} {r : Registration} {rows : List DataSource} {id : UUID} {source : DataSource}
open DataSourceRegistrationProperties

/-- What is registered matches the registration, where nothing that was read did; a process that starts
names it as nothing that it has read. -/
theorem verdict_inserts (h : r.verdict J rows id = .inserts source) :
    source.tenantId = r.tenantId ∧ r.properties.matchesSource J source = true ∧
      (∀ b ∈ rows, b.tenantId = r.tenantId → r.properties.matchesSource J b = false) ∧
      (r.request = none → ∀ b ∈ rows, b.tenantId = source.tenantId → b.name ≠ source.name) := by
  have hnone : ¬ (findAllByTenantId r.tenantId rows).any (r.properties.matchesSource J) = true →
      ∀ b ∈ rows, b.tenantId = r.tenantId → r.properties.matchesSource J b = false := by
    intro hany b hb ht
    by_contra hne
    refine hany (List.any_eq_true.mpr ⟨b, mem_findAllByTenantId.mpr ⟨hb, ht⟩, ?_⟩)
    rw [Bool.not_eq_false] at hne
    exact hne
  rw [Registration.verdict] at h
  cases hr : r.request with
  | some request =>
    rw [hr] at h
    simp only [DataSourceManagementService.create] at h
    by_cases hallows : r.properties.allows J request.host = true
    · by_cases hmatches : r.properties.matchesRequest J request = true
      · by_cases hany : (findAllByTenantId r.tenantId rows).any (r.properties.matchesSource J) = true
        · simp [hallows, hmatches, hany] at h
        · rw [if_neg (not_not.mpr hallows), if_neg (not_not.mpr hmatches), if_neg hany] at h
          injection h with h
          subst h
          refine ⟨rfl, ?_, hnone hany, fun hn => (nomatch hn)⟩
          rw [matchesRequest, matchesValues_iff] at hmatches
          simp only [matchesSource, Bool.true_and, matchesValues_iff, trim_trim]
          exact hmatches
      · simp [hallows, hmatches] at h
    · simp [hallows] at h
  | none =>
    rw [hr] at h
    simp only [DevelopmentBootstrap.register] at h
    by_cases hany : (findAllByTenantId r.tenantId rows).any (r.properties.matchesSource J) = true
    · simp [hany] at h
    · rw [if_neg hany] at h
      injection h with h
      subst h
      refine ⟨rfl, ?_, hnone hany, fun _ b hb ht hn => ?_⟩
      · rw [matchesSource, Bool.and_eq_true, matchesValues_iff]
        exact ⟨rfl, ⟨rfl, rfl⟩, rfl, rfl, rfl⟩
      · have hmem : b.name ∈ (findAllByTenantId r.tenantId rows).map DataSource.name :=
          List.mem_map_of_mem (mem_findAllByTenantId.mpr ⟨hb, ht⟩)
        rw [hn] at hmem
        exact freeName_free _ 2 "Northwind read-only" hmem

theorem verdict_found (h : r.verdict J rows id = .found) : r.request = none ∧
    ∃ b ∈ rows, b.tenantId = r.tenantId ∧ r.properties.matchesSource J b = true := by
  rw [Registration.verdict] at h
  cases hr : r.request with
  | some request =>
    rw [hr] at h
    simp only [DataSourceManagementService.create] at h
    split at h
    · cases h
    · split at h
      · cases h
      · split at h <;> cases h
  | none =>
    rw [hr] at h
    simp only [DevelopmentBootstrap.register] at h
    by_cases hany : (findAllByTenantId r.tenantId rows).any (r.properties.matchesSource J) = true
    · obtain ⟨b, hb, hm⟩ := List.any_eq_true.mp hany
      obtain ⟨hb, ht⟩ := mem_findAllByTenantId.mp hb
      exact ⟨rfl, b, hb, ht, hm⟩
    · simp [hany] at h

theorem verdict_refused {e : RegistrationError} (h : r.verdict J rows id = .refused e) :
    ∃ request, r.request = some request ∧ (e = .hostNotAllowed ∧ r.properties.allows J request.host = false ∨
      e = .demoDataSourceOnly ∧ (r.properties.matchesRequest J request = false ∨
        ∃ b ∈ rows, b.tenantId = r.tenantId ∧ r.properties.matchesSource J b = true)) := by
  rw [Registration.verdict] at h
  cases hr : r.request with
  | none =>
    rw [hr] at h
    simp only [DevelopmentBootstrap.register] at h
    split at h <;> cases h
  | some request =>
    rw [hr] at h
    simp only [DataSourceManagementService.create] at h
    refine ⟨request, rfl, ?_⟩
    by_cases hallows : r.properties.allows J request.host = true
    · by_cases hmatches : r.properties.matchesRequest J request = true
      · by_cases hany : (findAllByTenantId r.tenantId rows).any (r.properties.matchesSource J) = true
        · rw [if_neg (not_not.mpr hallows), if_neg (not_not.mpr hmatches), if_pos hany] at h
          injection h with h
          obtain ⟨b, hb, hm⟩ := List.any_eq_true.mp hany
          obtain ⟨hb, ht⟩ := mem_findAllByTenantId.mp hb
          exact .inr ⟨h.symm, .inr ⟨b, hb, ht, hm⟩⟩
        · simp [hallows, hmatches, hany] at h
      · rw [if_neg (not_not.mpr hallows), if_pos hmatches] at h
        injection h with h
        exact .inr ⟨h.symm, .inl (eq_false_of_ne_true hmatches)⟩
    · rw [if_pos hallows] at h
      injection h with h
      exact .inl ⟨h.symm, eq_false_of_ne_true hallows⟩

end Verdicts

/-- What a registration that is over says of the rows. -/
def RegistrationSettled (J : JavaCase) (rows : List DataSource) (r : Registration) : Phase DataSource RegistrationError → Prop
  | .inserted _ source => source ∈ DataSourceManagementService.list J r.properties r.tenantId rows
  | .found _ => r.request = none ∧ ∃ b, b ∈ DataSourceManagementService.list J r.properties r.tenantId rows
  | .refused _ .hostNotAllowed => ∃ request, r.request = some request ∧
    r.properties.allows J request.host = false
  | .refused _ .demoDataSourceOnly => ∃ request, r.request = some request ∧
    (r.properties.matchesRequest J request = false ∨
      ∃ b, b ∈ DataSourceManagementService.list J r.properties r.tenantId rows)
  -- the start of a process has not taken a name that it has read
  | .violated seen source => ∃ b ∈ rows, b.Clash source ∧ (r.request = none → b.id = source.id ∨ b ∉ seen)
  | _ => True

variable {J : JavaCase} {s : SourceRegistry}

theorem registration_settled (hs : Sound (Registration.verdict J) DataSource.Clash s) {i : Nat} {r : Registration}
    {phase : Phase DataSource RegistrationError} (h : s.calls i = some (r, phase)) :
    RegistrationSettled J s.table.rows r phase := by
  have hf := hs.calls i r phase h
  cases phase with
  | inserted seen source =>
    obtain ⟨⟨-, id, hv⟩, hrow⟩ := hf
    obtain ⟨ht, hm, -⟩ := verdict_inserts hv
    exact mem_list.mpr ⟨hrow, ht, hm⟩
  | found seen =>
    obtain ⟨hseen, id, hv⟩ := hf
    obtain ⟨hr, b, hb, ht, hm⟩ := verdict_found hv
    exact ⟨hr, b, mem_list.mpr ⟨hseen hb, ht, hm⟩⟩
  | refused seen e =>
    obtain ⟨hseen, id, hv⟩ := hf
    obtain ⟨request, hr, ⟨rfl, ha⟩ | ⟨rfl, hm | ⟨b, hb, ht, hm⟩⟩⟩ := verdict_refused hv
    · exact ⟨request, hr, ha⟩
    · exact ⟨request, hr, .inl hm⟩
    · exact ⟨request, hr, .inr ⟨b, mem_list.mpr ⟨hseen hb, ht, hm⟩⟩⟩
  | violated seen source =>
    obtain ⟨⟨-, id, hv⟩, b, hb, hclash⟩ := hf
    obtain ⟨-, -, -, hname⟩ := verdict_inserts hv
    refine ⟨b, hb, hclash, fun hr => ?_⟩
    cases hclash with
    | inl hid => exact .inl hid
    | inr hc => exact .inr fun hin => hname hr b hin hc.1 hc.2
  | _ => trivial

/-- However registrations run side by side, under whatever properties: each settles what it answers, and a call
that registers a source has read no other source of the tenant that matches a registration with it. -/
theorem registrations_apart (h : (SourceRegistry.system J).Reachable s) :
    (∀ i r phase, s.calls i = some (r, phase) → RegistrationSettled J s.table.rows r phase) ∧
    (∀ i r seen a b, s.calls i = some (r, .inserted seen a) → a.tenantId = b.tenantId →
      (∃ R : DataSourceRegistrationProperties, R.matchesSource J a = true ∧ R.matchesSource J b = true) → b ∉ seen) ∧
    s.table.rows.Pairwise fun a b => ¬ DataSource.Clash a b := by
  have hs := sound h
  refine ⟨fun i r phase hi => registration_settled hs hi, ?_, ?_⟩
  · intro i r seen a b hi ht hR hb
    obtain ⟨R, ha, hb'⟩ := hR
    obtain ⟨⟨-, id, hv⟩, -⟩ := hs.calls i r _ hi
    obtain ⟨hta, hm, hfree, -⟩ := verdict_inserts hv
    have hmb := matches_alike ha hb' hm
    rw [hfree b hb (ht ▸ hta)] at hmb
    cases hmb
  · exact hs.unique.sublist (List.sublist_append_left _ _)

section Race

def javaCase : JavaCase := ⟨Text.lower, Char.toLower⟩

def demo : DataSourceRegistrationProperties :=
  ⟨["postgres"], "postgres", 5432, "northwind", "northwind", "env:NORTHWIND_PASSWORD"⟩

def demoTenant : UUID := ⟨"00000000-0000-4000-8000-0000000000d0", Eq.refl true⟩

def starting : Registration := ⟨demo, demoTenant, none⟩

def asking : Registration :=
  ⟨demo, demoTenant, some ⟨"Sales ", " Postgres", 5432, "northwind", "northwind", "env:NORTHWIND_PASSWORD"⟩⟩

/-- A process starts while an administrator registers its source. -/
def racing : List (Move Registration UUID) :=
  [.call 0 starting, .call 1 asking, .read 0 ⟨"00000000-0000-4000-8000-0000000000d1", Eq.refl true⟩,
    .read 1 ⟨"00000000-0000-4000-8000-0000000000d2", Eq.refl true⟩, .flush 0, .flush 1, .commit 0, .commit 1]

def raced : SourceRegistry := (racing.foldlM (State.next (Registration.verdict javaCase) DataSource.Clash) {}).getD {}

theorem raced_reachable : (SourceRegistry.system javaCase).Reachable raced := by
  have hm : racing.foldlM (State.next (Registration.verdict javaCase) DataSource.Clash) {} = some raced := rfl
  have h0 : (SourceRegistry.system javaCase).Reachable {} := .start ⟨List.Pairwise.nil, rfl, fun _ => rfl⟩
  exact h0.foldlM (fun _ _ _ h => h) hm

theorem raced_unseen : ∃ a b seen seen', raced.calls 0 = some (starting, .inserted seen a) ∧
    raced.calls 1 = some (asking, .inserted seen' b) ∧ a ∈ raced.table.rows ∧ b ∈ raced.table.rows ∧
    (b ∉ seen ∧ a ∉ seen') := by
  obtain ⟨-, hunseen, -⟩ := registrations_apart raced_reachable
  exact ⟨_, _, _, _, rfl, rfl, List.mem_cons_of_mem _ List.mem_cons_self, List.mem_cons_self,
    hunseen 0 _ _ _ _ rfl rfl ⟨demo, by decide +kernel, by decide +kernel⟩,
    hunseen 1 _ _ _ _ rfl rfl ⟨demo, by decide +kernel, by decide +kernel⟩⟩

end Race
end DataCopilot.Platform
