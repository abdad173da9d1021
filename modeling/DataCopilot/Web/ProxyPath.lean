import DataCopilot.Web.Proxy

/-! Where the proxy sends a request: below `/api/` of the platform, with the segments that it was given. -/
namespace DataCopilot.Web
open URL

section Segments
variable {part : String} {segment : List Char}

theorem uriKeep_percent : uriKeep '%' = false := by decide

/-- The characters of an encoded segment. -/
def Encoded (c : Char) : Prop :=
  33 ≤ c.toNat ∧ c.toNat ≤ 126 ∧ c.toNat ∉ [0x22, 0x23, 0x2F, 0x3C, 0x3E, 0x3F, 0x5C, 0x5E, 0x60, 0x7B, 0x7D]

theorem mem_encodeURIComponent {c : Char} (h : c ∈ encodeURIComponent part) : Encoded c := by
  have hle : ∀ a b : Char, a ≤ b ↔ a.toNat ≤ b.toNat := fun a b => by
    rw [Char.le_def, UInt32.le_iff_toNat_le]
    rfl
  have h0 : '0'.toNat = 48 := rfl
  have h9 : '9'.toNat = 57 := rfl
  have hA : 'A'.toNat = 65 := rfl
  have hF : 'F'.toNat = 70 := rfl
  have hZ : 'Z'.toNat = 90 := rfl
  have ha : 'a'.toNat = 97 := rfl
  have hz : 'z'.toNat = 122 := rfl
  have hmem := Percent.mem_encode h
  simp only [uriKeep, Bool.or_eq_true, Bool.and_eq_true, decide_eq_true_eq, hle, h0, h9, hA, hF, hZ, ha, hz,
    List.contains_eq_mem, List.mem_cons, List.not_mem_nil, or_false] at hmem
  have hp : c = '%' → c.toNat = 37 := fun he => by rw [he]; rfl
  rw [Encoded]
  simp only [List.mem_cons, List.not_mem_nil, or_false]
  rcases hmem with hkeep | hpercent | hhex
  · omega
  · have := hp hpercent
    omega
  · omega

theorem decode_encodeURIComponent (part : String) : Percent.decode (encodeURIComponent part) = part.toList :=
  Percent.decode_encode uriKeep_percent

theorem encoded_slash {c : Char} (h : Encoded c) : isSlash c = false := by
  obtain ⟨_, _, hn⟩ := h
  simp only [List.mem_cons, List.not_mem_nil, or_false, not_or] at hn
  have hslash : c ≠ '/' := fun he => by
    rw [he] at hn
    exact absurd rfl hn.2.2.1
  have hback : c ≠ Char.ofNat 92 := fun he => by
    rw [he] at hn
    exact absurd rfl hn.2.2.2.2.2.2.1
  simp [isSlash, hslash, hback]

theorem encoded_path {c : Char} (h : Encoded c) : pathKeep c = true := by
  obtain ⟨hlow, hhigh, hn⟩ := h
  simp only [List.mem_cons, List.not_mem_nil, or_false, not_or] at hn
  simp only [pathKeep, Bool.and_eq_true, decide_eq_true_eq, Bool.not_eq_true', List.contains_eq_mem,
    decide_eq_false_iff_not, List.mem_cons, List.not_mem_nil, or_false, not_or]
  exact ⟨⟨hlow, hhigh⟩, hn.1, hn.2.1, hn.2.2.2.1, hn.2.2.2.2.1, hn.2.2.2.2.2.1, hn.2.2.2.2.2.2.2.1,
    hn.2.2.2.2.2.2.2.2.1, hn.2.2.2.2.2.2.2.2.2.1, hn.2.2.2.2.2.2.2.2.2.2⟩

/-- Only a dot is written as what a URL takes for one. -/
theorem isSingleDot_encode (h : part ≠ ".") : isSingleDot (encodeURIComponent part) = false := by
  have hdecode := decode_encodeURIComponent part
  by_contra hd
  rw [Bool.not_eq_false, isSingleDot, List.contains_eq_mem, decide_eq_true_eq] at hd
  have hall : ∀ s ∈ [".", "%2e", "%2E"], Percent.decode s.toList = ".".toList := by decide +kernel
  have hdot := hall _ hd
  rw [String.toList_ofList, hdecode] at hdot
  exact h (String.toList_inj.mp hdot)

theorem isDoubleDot_encode (h : part ≠ "..") : isDoubleDot (encodeURIComponent part) = false := by
  have hdecode := decode_encodeURIComponent part
  by_contra hd
  rw [Bool.not_eq_false, isDoubleDot, List.contains_eq_mem, decide_eq_true_eq] at hd
  have hall : ∀ s ∈ ["..", ".%2e", ".%2E", "%2e.", "%2E.", "%2e%2e", "%2e%2E", "%2E%2e", "%2E%2E"],
      Percent.decode s.toList = "..".toList := by decide +kernel
  have hdot := hall _ hd
  rw [String.toList_ofList, hdecode] at hdot
  exact h (String.toList_inj.mp hdot)

/-- A segment that a URL keeps as it is. -/
structure Steady (segment : List Char) : Prop where
  chars : ∀ c ∈ segment, Encoded c
  single : isSingleDot segment = false
  double : isDoubleDot segment = false

theorem steady_encode (hdot : part ≠ ".") (hdots : part ≠ "..") : Steady (encodeURIComponent part) :=
  ⟨fun _ hc => mem_encodeURIComponent hc, isSingleDot_encode hdot, isDoubleDot_encode hdots⟩

theorem steady_api : Steady "api".toList := by
  have hapi : encodeURIComponent "api" = "api".toList := by decide +kernel
  exact hapi ▸ steady_encode (by decide) (by decide)

theorem Steady.add (h : Steady segment) (last : Bool) (path : List (List Char)) :
    addSegment last path segment = path ++ [segment] := by
  rw [addSegment, h.double, h.single, if_neg Bool.false_ne_true, if_neg Bool.false_ne_true,
    Percent.encode_kept fun c hc => encoded_path (h.chars c hc)]

theorem addSegments_steady {segments : List (List Char)} (h : ∀ segment ∈ segments, Steady segment)
    (path : List (List Char)) : addSegments path segments = path ++ segments := by
  induction segments generalizing path with
  | nil => exact (List.append_nil path).symm
  | cons segment rest ih =>
    have hs := h segment List.mem_cons_self
    cases rest with
    | nil => rw [addSegments, hs.add]
    | cons next rest =>
      rw [addSegments, hs.add, ih fun s hm => h s (List.mem_cons_of_mem _ hm)]
      · exact List.append_assoc ..
      · exact List.cons_ne_nil _ _

theorem splitOnP_steady {segments : List (List Char)} (h : ∀ segment ∈ segments, Steady segment)
    (hne : segments ≠ []) : (['/'].intercalate segments).splitOnP isSlash = segments := by
  induction segments with
  | nil => exact absurd rfl hne
  | cons segment rest ih =>
    have hs : ∀ c ∈ segment, isSlash c = false :=
      fun c hc => encoded_slash ((h segment List.mem_cons_self).chars c hc)
    cases rest with
    | nil => rw [List.intercalate_singleton, List.splitOnP_eq_singleton hs]
    | cons next rest =>
      rw [List.intercalate_cons_cons, List.append_assoc, List.singleton_append,
        List.splitOnP_append_cons_of_forall_mem hs '/' rfl,
        ih (fun s hm => h s (List.mem_cons_of_mem _ hm)) (List.cons_ne_nil _ _)]

theorem mem_intercalate {segments : List (List Char)} (h : ∀ segment ∈ segments, Steady segment) {c : Char}
    (hc : c ∈ ['/'].intercalate segments) : c = '/' ∨ Encoded c := by
  induction segments with
  | nil => cases hc
  | cons segment rest ih =>
    have hs := (h segment List.mem_cons_self).chars
    cases rest with
    | nil =>
      rw [List.intercalate_singleton] at hc
      exact .inr (hs c hc)
    | cons next rest =>
      rw [List.intercalate_cons_cons, List.mem_append, List.mem_append, List.mem_singleton] at hc
      rcases hc with (hc | hc) | hc
      · exact .inr (hs c hc)
      · exact .inl hc
      · exact ih (fun s hm => h s (List.mem_cons_of_mem _ hm)) hc

theorem clean_eq {input : List Char} (h : ∀ c ∈ input, 32 < c.toNat) : clean input = input := by
  have hlow : ∀ c ∈ input, ¬ (decide (c.toNat ≤ 32)) = true := by
    intro c hc
    have := h c hc
    simp only [decide_eq_true_eq]
    omega
  have hdrop : ∀ l : List Char, (∀ c ∈ l, ¬ (decide (c.toNat ≤ 32)) = true) →
      l.dropWhile (fun c => c.toNat ≤ 32) = l := by
    intro l hl
    cases l with
    | nil => rfl
    | cons c rest => exact List.dropWhile_cons_of_neg (hl c List.mem_cons_self)
  have hback : ∀ c ∈ input.reverse, ¬ (decide (c.toNat ≤ 32)) = true := fun c hc => hlow c (List.mem_reverse.mp hc)
  rw [clean, hdrop input hlow, List.rdropWhile, hdrop _ hback, List.reverse_reverse, List.filter_eq_self]
  intro c hc
  have hc := h c hc
  simp only [List.contains_eq_mem, List.mem_cons, List.not_mem_nil, or_false, decide_eq_true_eq]
  omega

/-- A URL below `/api/` is on the host of the base, with the segments that were written. -/
theorem resolve_steady (base : String) {segments : List (List Char)} (h : ∀ segment ∈ segments, Steady segment)
    (hne : segments ≠ []) :
    resolve base ("/api/".toList ++ ['/'].intercalate segments) = some ⟨base, "api".toList :: segments, ""⟩ := by
  have hall : ∀ segment ∈ "api".toList :: segments, Steady segment := List.forall_mem_cons.mpr ⟨steady_api, h⟩
  have hjoin : "/api/".toList ++ ['/'].intercalate segments =
      '/' :: ['/'].intercalate ("api".toList :: segments) := by
    rw [List.intercalate_cons_of_ne_nil hne]
    rfl
  have hchars : ∀ c ∈ '/' :: ['/'].intercalate ("api".toList :: segments), c = '/' ∨ Encoded c := by
    intro c hc
    cases List.mem_cons.mp hc with
    | inl hc => exact .inl hc
    | inr hc => exact mem_intercalate hall hc
  have hclean : clean ('/' :: ['/'].intercalate ("api".toList :: segments)) =
      '/' :: ['/'].intercalate ("api".toList :: segments) := by
    apply clean_eq
    intro c hc
    cases hchars c hc with
    | inl h => rw [h]; decide
    | inr h => exact h.1
  have hhead : (['/'].intercalate ("api".toList :: segments)).head? = some 'a' := by
    rw [List.intercalate_cons_of_ne_nil hne]
    rfl
  have htake : (['/'].intercalate ("api".toList :: segments)).takeWhile
      (fun c => ¬ [0x3F, 0x23].contains c.toNat) = ['/'].intercalate ("api".toList :: segments) := by
    rw [List.takeWhile_eq_self_iff]
    intro c hc
    have hn : c.toNat ≠ 0x3F ∧ c.toNat ≠ 0x23 := by
      cases hchars c (List.mem_cons_of_mem _ hc) with
      | inl h => rw [h]; decide
      | inr h =>
        have hn := h.2.2
        simp only [List.mem_cons, List.not_mem_nil, or_false, not_or] at hn
        exact ⟨hn.2.2.2.2.2.1, hn.2.1⟩
    simpa using hn
  rw [hjoin, resolve, hclean]
  simp only [hhead]
  rw [if_neg (by decide), htake, splitOnP_steady hall (List.cons_ne_nil _ _), addSegments_steady hall]
  rfl

end Segments

theorem mem_keptHeaders {names : List String} {headers : String → Option String} {name value : String} :
    (name, value) ∈ keptHeaders names headers ↔ name ∈ names ∧ headers name = some value ∧ value ≠ "" := by
  rw [keptHeaders, List.mem_filterMap]
  constructor
  · intro ⟨n, hn, h⟩
    cases hh : headers n with
    | none =>
      rw [hh] at h
      cases h
    | some v =>
      by_cases hv : v = ""
      · simp [hh, hv] at h
      · simp only [hh, if_neg hv, Option.some.injEq, Prod.mk.injEq] at h
        obtain ⟨rfl, rfl⟩ := h
        exact ⟨hn, hh, hv⟩
  · intro ⟨hn, hh, hv⟩
    exact ⟨name, hn, by simp only [hh, if_neg hv]⟩

theorem mem_relay_headers {upstream : UpstreamResponse} {name value : String} :
    (name, value) ∈ (relay upstream).headers ↔
      name ∈ returnedHeaders ∧ upstream.headers name = some value ∧ value ≠ "" ∨
        name = "X-Content-Type-Options" ∧ value = "nosniff" := by
  rw [relay, List.mem_append, mem_keptHeaders, List.mem_singleton, Prod.mk.injEq]

/-- What is sent for a request that is not refused. -/
def sent (platformBase : String) (request : ProxyRequest) : UpstreamRequest where
  target := ⟨platformBase, "api".toList :: request.path.map encodeURIComponent, request.search⟩
  method := request.method
  headers := keptHeaders forwardedHeaders request.headers
  body := if request.method ≠ "GET" ∧ request.method ≠ "HEAD" then some request.body else none

theorem decode_sent (platformBase : String) (request : ProxyRequest) :
    (sent platformBase request).target.path.map Percent.decode = "api".toList :: request.path.map String.toList := by
  rw [sent, List.map_cons, List.map_map, List.cons.injEq]
  exact ⟨by decide +kernel, List.map_congr_left fun part _ => decode_encodeURIComponent part⟩

/-- The parts that `proxy` lets pass. -/
def Passable (path : List String) : Prop :=
  path ≠ [] ∧ ∀ part ∈ path, part ≠ "" ∧ part ≠ "." ∧ part ≠ ".."

section Sending
variable {request : ProxyRequest} (h : Passable request.path)
include h

theorem Passable.steady : ∀ segment ∈ request.path.map encodeURIComponent, Steady segment := by
  intro segment hs
  obtain ⟨part, hp, rfl⟩ := List.mem_map.mp hs
  obtain ⟨_, hdot, hdots⟩ := h.2 part hp
  exact steady_encode hdot hdots

theorem Passable.proxy (platformBase : String) :
    proxy platformBase request = .ok (some (sent platformBase request)) := by
  have hgood : ¬ (request.path = [] ∨ ∃ part ∈ request.path, part = "" ∨ part = "." ∨ part = "..") := by
    rintro (hnil | ⟨part, hp, hbad⟩)
    · exact h.1 hnil
    · obtain ⟨h1, h2, h3⟩ := h.2 part hp
      rcases hbad with hbad | hbad | hbad
      · exact h1 hbad
      · exact h2 hbad
      · exact h3 hbad
  have hsegments : request.path.map encodeURIComponent ≠ [] := by
    rw [ne_eq, List.map_eq_nil_iff]
    exact h.1
  rw [Web.proxy, if_neg hgood, resolve_steady platformBase h.steady hsegments]
  rfl

theorem Passable.segment (platformBase : String) :
    ∀ segment ∈ (sent platformBase request).target.path,
      segment ≠ [] ∧ isSingleDot segment = false ∧ isDoubleDot segment = false ∧ ∀ c ∈ segment, isSlash c = false := by
  intro segment hs
  cases List.mem_cons.mp hs with
  | inl hapi =>
    rw [hapi]
    exact ⟨by decide, steady_api.single, steady_api.double, fun c hc => encoded_slash (steady_api.chars c hc)⟩
  | inr hmem =>
    have hst := h.steady segment hmem
    refine ⟨fun he => ?_, hst.single, hst.double, fun c hc => encoded_slash (hst.chars c hc)⟩
    obtain ⟨part, hp, hpart⟩ := List.mem_map.mp hmem
    have hdecode := decode_encodeURIComponent part
    rw [hpart, he] at hdecode
    exact (h.2 part hp).1 (String.toList_eq_nil_iff.mp hdecode.symm)

end Sending

/-- A request is refused, or goes to the platform's own host below `/api/`, with the segments and the query that it
came with: no segment is lost, joined or taken for a step up. Of its headers only those that the route names
are handed on, and of those of an answer only three, with `nosniff`. -/
theorem proxied (platformBase : String) (fetch : UpstreamRequest → UpstreamResponse) (request : ProxyRequest) :
    (serve platformBase fetch request = some invalidPath ∧
      (request.path = [] ∨ ∃ part ∈ request.path, part = "" ∨ part = "." ∨ part = "..")) ∨
    ∃ upstream, proxy platformBase request = .ok (some upstream) ∧
      upstream.target.origin = platformBase ∧
      upstream.target.path.map Percent.decode = "api".toList :: request.path.map String.toList ∧
      (∀ segment ∈ upstream.target.path, segment ≠ [] ∧ isSingleDot segment = false ∧ isDoubleDot segment = false ∧
        ∀ c ∈ segment, isSlash c = false) ∧
      upstream.target.search = request.search ∧ upstream.method = request.method ∧
      (∀ name value, (name, value) ∈ upstream.headers ↔
        name ∈ forwardedHeaders ∧ request.headers name = some value ∧ value ≠ "") ∧
      upstream.body = (if request.method ≠ "GET" ∧ request.method ≠ "HEAD" then some request.body else none) ∧
      ∃ answer, serve platformBase fetch request =
          (if 200 ≤ (fetch upstream).status ∧ (fetch upstream).status ≤ 599 then some answer else none) ∧
        answer.status = (fetch upstream).status ∧
        answer.body = (fetch upstream).body ∧ ∀ name value, (name, value) ∈ answer.headers ↔
          name ∈ returnedHeaders ∧ (fetch upstream).headers name = some value ∧ value ≠ "" ∨
            name = "X-Content-Type-Options" ∧ value = "nosniff" := by
  by_cases hbad : request.path = [] ∨ ∃ part ∈ request.path, part = "" ∨ part = "." ∨ part = ".."
  · have hrefused : proxy platformBase request = .error invalidPath := if_pos hbad
    exact .inl ⟨by rw [serve, hrefused], hbad⟩
  · have h : Passable request.path := by
      obtain ⟨hne, hparts⟩ := not_or.mp hbad
      refine ⟨hne, fun part hp => ?_⟩
      have hpart := fun hb => hparts ⟨part, hp, hb⟩
      simp only [imp_false, not_or] at hpart
      exact hpart
    have hserve : serve platformBase fetch request =
        if 200 ≤ (fetch (sent platformBase request)).status ∧ (fetch (sent platformBase request)).status ≤ 599
        then some (relay (fetch (sent platformBase request))) else none := by
      rw [serve, h.proxy platformBase]
    exact .inr ⟨sent platformBase request, h.proxy platformBase, rfl, decode_sent platformBase request,
      h.segment platformBase, rfl, rfl, fun _ _ => mem_keptHeaders, rfl, _, hserve, rfl, rfl,
      fun _ _ => mem_relay_headers⟩

end DataCopilot.Web
