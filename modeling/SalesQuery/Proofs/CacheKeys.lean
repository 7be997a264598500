import SalesQuery.Catalog.Restaurant
import SalesQuery.Proofs.RequestJson
import SalesQuery.Service.Engine

/-!
# Cache keys

A call of the engine that passes its checks looks its result up under a key, and runs statements if
nothing is found there (`Engine.lookup`). That the endpoints do so is `Engine.uses_of_lookup`. The
key is taken over the request and not over the statements; still, no call is ever answered by what
the statements of another one gave: two calls with one key are calls of one endpoint that run the
same statements (`Engine.statements_eq_of_key_eq`).
-/

namespace SalesQuery

open Json (Value)

/-! ## Calls -/

/-- The endpoints whose results are kept. -/
inductive Endpoint where
  /-- Rows of queries. -/
  | query
  /-- Dashboards. -/
  | dashboard
  /-- Comparisons of periods. -/
  | comparison
  /-- Listings. -/
  | listing
deriving DecidableEq, Repr

/-- The scope of the results of an endpoint. -/
def Endpoint.scope : Endpoint → String
  | .query => queryScope
  | .dashboard => dashboardScope
  | .comparison => comparisonScope
  | .listing => listingScope

/-- Each endpoint has a scope of its own. -/
theorem Endpoint.scope_inj {a b : Endpoint} (h : a.scope = b.scope) : a = b := by
  have hall : ∀ a b : Endpoint, a.scope = b.scope → a = b := by
    intro a b
    cases a <;> cases b <;> decide
  exact hall a b h

/-- A call whose result is kept. -/
inductive Call where
  /-- Asks for the rows of a query. -/
  | query (r : QueryRequest)
  /-- Asks for a dashboard. -/
  | dashboard (r : DashboardRequest)
  /-- Asks for a comparison. -/
  | comparison (r : ComparisonRequest)
  /-- Asks for a listing with a limit. -/
  | listing (l : Listing) (limit : Option Int)

/-- The endpoint of a call. -/
def Call.endpoint : Call → Endpoint
  | .query _ => .query
  | .dashboard _ => .dashboard
  | .comparison _ => .comparison
  | .listing _ _ => .listing

/-- A JSON text can hold the filters of the call: no number in them is an infinity or a NaN, and no
object in them has two members of one name. -/
def Call.Proper : Call → Prop
  | .query r => ∀ f ∈ r.filters.entries, f.2.toJson.Proper
  | _ => True

/-- What a call that passed its checks looks up, and what it runs if nothing is found. -/
structure Lookup where
  /-- The endpoint. -/
  endpoint : Endpoint
  /-- What the result is kept under. -/
  payload : Value
  /-- The statements, in order. -/
  statements : List CompiledQuery

/-- The key of the result. -/
def Lookup.key (p : Lookup) : String := fingerprint p.endpoint.scope p.payload

/-- Executes statements one after the other, until one fails. -/
def Backend.run {σ : Type} (execute : Executor σ) : List CompiledQuery → Backend σ → Backend σ
  | [], b => b
  | q :: rest, b =>
    match b.fetch execute q with
    | (.ok _, b) => run execute rest b
    | (.error _, b) => b

namespace Engine

variable {σ : Type} {e : Engine σ}

/-- What a call looks up and runs, or the fault that its checks find. -/
def lookup (e : Engine σ) : Call → Except ServiceFault Lookup
  | .query r => do
    let (r, compiled) ← e.prepare r
    return ⟨.query, r.toJson, [compiled]⟩
  | .dashboard r => return ⟨.dashboard, r.toJson, [aggregateQuery r.dateRange r.filters]⟩
  | .comparison r => do
    r.check.mapError .request
    return ⟨.comparison, r.toJson, [aggregateQuery r.base.toRange r.filters,
      aggregateQuery r.compare.toRange r.filters]⟩
  | .listing l limit => do
    let limit := listingLimit l limit
    let compiled ← (l.query limit).mapError .request
    return ⟨.listing, listingPayload l limit, [compiled]⟩

/-- The session after a call. -/
def after (e : Engine σ) (m : Moment) (s : Session σ) : Call → Session σ
  | .query r => (e.query m r s).2
  | .dashboard r => (e.dashboard m r s).2
  | .comparison r => (e.compare m r s).2
  | .listing l limit => (e.list m l limit s).2

/-- At every moment and in every session, a call returns what is kept under the key of a lookup, or
runs its statements and keeps what it makes of their rows under that key. -/
def Uses (e : Engine σ) (c : Call) (p : Lookup) : Prop :=
  ∀ (m : Moment) (s : Session σ),
    ∃ (α : Type) (codec : Codec α) (compute : Backend σ → Except ServiceFault α × Backend σ),
      (∀ b, (compute b).2 = b.run e.execute p.statements) ∧
      e.after m s c = (s.getOrCompute m codec p.endpoint.scope p.payload compute).2

end Engine

/-! ## What a call does -/

theorem Backend.run_singleton {σ : Type} (execute : Executor σ) (q : CompiledQuery)
    (b : Backend σ) : b.run execute [q] = (b.fetch execute q).2 := by
  rw [run]
  split
  · rename_i heq
    rw [heq, run]
  · rename_i heq
    rw [heq]

theorem Backend.run_pair {σ : Type} (execute : Executor σ) (first second : CompiledQuery)
    (b : Backend σ) : b.run execute [first, second] = (b.fetchBoth execute first second).2 := by
  rw [run, fetchBoth]
  split
  · rename_i heq
    rw [heq, run_singleton]
  · rename_i heq
    rw [heq]

namespace Engine

variable {σ : Type} {e : Engine σ}

/-- A request has a canonical form and a statement exactly if that form is resolved and compiles. -/
theorem prepare_eq_ok {r r' : QueryRequest} {compiled : CompiledQuery} :
    e.prepare r = .ok (r', compiled) ↔
      e.canonical r = .ok r' ∧ ∃ resolved, r'.resolve e.catalog e.maxLimit = .ok resolved ∧
        resolved.compile e.catalog = .ok compiled := by
  rw [prepare, bind_eq_ok]
  constructor
  · rintro ⟨r', hr, h⟩
    obtain ⟨resolved, hresolved, h⟩ := bind_eq_ok.mp h
    obtain ⟨compiled, hcompiled, h⟩ := bind_eq_ok.mp h
    cases h
    exact ⟨hr, resolved, mapError_eq_ok.mp hresolved, mapError_eq_ok.mp hcompiled⟩
  · rintro ⟨hr, resolved, hresolved, hcompiled⟩
    exact ⟨r', hr, bind_eq_ok.mpr ⟨resolved, mapError_eq_ok.mpr hresolved,
      bind_eq_ok.mpr ⟨compiled, mapError_eq_ok.mpr hcompiled, rfl⟩⟩⟩

/-- What passes the checks of each endpoint, and what is then looked up and run. -/
inductive LooksUp (e : Engine σ) : Call → Lookup → Prop
  /-- A query has a canonical form and a statement. -/
  | query {r r' : QueryRequest} {compiled : CompiledQuery} (h : e.prepare r = .ok (r', compiled)) :
    LooksUp e (.query r) ⟨.query, r'.toJson, [compiled]⟩
  /-- A dashboard has nothing to check. -/
  | dashboard (r : DashboardRequest) :
    LooksUp e (.dashboard r) ⟨.dashboard, r.toJson, [aggregateQuery r.dateRange r.filters]⟩
  /-- The periods of a comparison are in order. -/
  | comparison {r : ComparisonRequest} (h : r.check = .ok ()) :
    LooksUp e (.comparison r) ⟨.comparison, r.toJson, [aggregateQuery r.base.toRange r.filters,
      aggregateQuery r.compare.toRange r.filters]⟩
  /-- The limit that applies to a listing is in its range. -/
  | listing {l : Listing} {limit : Option Int} {compiled : CompiledQuery}
    (h : l.query (listingLimit l limit) = .ok compiled) :
    LooksUp e (.listing l limit) ⟨.listing, listingPayload l (listingLimit l limit), [compiled]⟩

/-- A call looks something up only as its endpoint does. -/
theorem looksUp_of_lookup {c : Call} {p : Lookup} (h : e.lookup c = .ok p) : e.LooksUp c p := by
  cases c with
  | query r =>
    obtain ⟨⟨r', compiled⟩, hr, h⟩ := bind_eq_ok.mp h
    obtain rfl := pure_eq_ok.mp h
    exact .query hr
  | dashboard r =>
    obtain rfl := pure_eq_ok.mp h
    exact .dashboard r
  | comparison r =>
    obtain ⟨hr, h⟩ := check_bind_eq_ok.mp h
    obtain rfl := pure_eq_ok.mp h
    exact .comparison (mapError_eq_ok.mp hr)
  | listing l limit =>
    obtain ⟨compiled, hl, h⟩ := bind_eq_ok.mp h
    obtain rfl := pure_eq_ok.mp h
    exact .listing (mapError_eq_ok.mp hl)

/-- A call whose checks find a fault changes nothing. -/
theorem after_eq_of_fault {c : Call} {fault : ServiceFault} (h : e.lookup c = .error fault)
    (m : Moment) (s : Session σ) : e.after m s c = s := by
  cases c with
  | query r =>
    cases hr : e.prepare r with
    | error f => simp [after, query, hr]
    | ok p => simp [lookup, hr, bind, Except.bind, pure, Except.pure] at h
  | dashboard r => cases h
  | comparison r =>
    cases hr : r.check with
    | error f => simp [after, compare, hr]
    | ok p => simp [lookup, hr, Except.mapError, bind, Except.bind, pure, Except.pure] at h
  | listing l limit =>
    cases hr : l.query (listingLimit l limit) with
    | error f => simp [after, list, hr]
    | ok p => simp [lookup, hr, Except.mapError, bind, Except.bind, pure, Except.pure] at h

/-- A call that passes its checks uses the key and the statements of its lookup. -/
theorem uses_of_lookup {c : Call} {p : Lookup} (h : e.lookup c = .ok p) : e.Uses c p := by
  intro m s
  cases looksUp_of_lookup h with
  | @query r r' compiled hr =>
    refine ⟨_, Row.codec.list, Backend.fetch e.execute compiled,
      fun b => (b.run_singleton e.execute compiled).symm, ?_⟩
    rw [after, query, hr]
    rfl
  | dashboard r =>
    refine ⟨_, Card.codec.list,
      fun b =>
        ((b.fetch e.execute (aggregateQuery r.dateRange r.filters)).1.map fun rows =>
          dashboardCards rows.head?,
        (b.fetch e.execute (aggregateQuery r.dateRange r.filters)).2),
      fun b => (b.run_singleton e.execute _).symm, ?_⟩
    simp only [after, dashboard]
    rfl
  | @comparison r hr =>
    refine ⟨_, MetricComparison.codec.list,
      fun b =>
        ((b.fetchBoth e.execute (aggregateQuery r.base.toRange r.filters)
          (aggregateQuery r.compare.toRange r.filters)).1.map fun rows =>
            comparisons rows.1.head? rows.2.head?,
        (b.fetchBoth e.execute (aggregateQuery r.base.toRange r.filters)
          (aggregateQuery r.compare.toRange r.filters)).2),
      fun b => (b.run_pair e.execute _ _).symm, ?_⟩
    simp only [after, compare, hr]
    rfl
  | @listing l limit compiled hl =>
    refine ⟨_, ListedValue.codec.list,
      fun b =>
        ((b.fetch e.execute compiled).1.map fun rows => rows.map ListedValue.ofRow,
        (b.fetch e.execute compiled).2),
      fun b => (b.run_singleton e.execute compiled).symm, ?_⟩
    simp only [after, list, hl]
    rfl

end Engine

/-! ## What a payload tells -/

/-- Normalizing a request removes filters and leaves the others as they are. -/
theorem QueryRequest.mem_of_normalize {r r' : QueryRequest} (h : r.normalize = .ok r')
    {f : String × FilterInput} (hf : f ∈ r'.filters.entries) : f ∈ r.filters.entries := by
  have hfilters : r'.filters = (r.filters.erase firstDayFilter).erase lastDayFilter := by
    unfold normalize at h
    split at h
    · cases h
      rfl
    · obtain ⟨range, -, h⟩ := bind_eq_ok.mp h
      cases h
      rfl
  rw [hfilters] at hf
  exact List.mem_of_mem_filter (List.mem_of_mem_filter hf)

/-- The filters of a request that is resolved have scalars and lists of scalars only. -/
theorem QueryRequest.Resolves.plain {catalog : Catalog} {maxLimit : Int} {r : QueryRequest}
    {q : ResolvedQuery} (h : r.Resolves catalog maxLimit q) :
    ∀ f ∈ r.filters.entries, f.2.Plain := by
  intro f hf
  obtain ⟨groups, hgroups, -⟩ := h.filters
  obtain ⟨group, hgroup⟩ := exists_of_mem_of_mapM hgroups hf
  exact FilterInput.plain_of_resolveFilter hgroup

/-- The listings have different names. -/
theorem Listing.name_inj {l k : Listing} (h : l.name = k.name) : l = k := by
  have hall : ∀ l k : Listing, l.name = k.name → l = k := by
    intro l k
    cases l <;> cases k <;> decide
  exact hall l k h

namespace Engine

variable {σ : Type} {e : Engine σ}

theorem listingPayload_inj {l k : Listing} {m n : Option Int}
    (h : listingPayload l m = listingPayload k n) : l = k ∧ m = n := by
  have hparts := Value.ofMembers_inj ["dimension", "limit"] (by decide) rfl rfl h
  simp only [List.cons.injEq, Prod.mk.injEq, true_and, and_true] at hparts
  exact ⟨Listing.name_inj (Value.string.inj hparts.1), ofOption_int_inj hparts.2⟩

theorem canonical_listingPayload (l : Listing) (m : Option Int) :
    (listingPayload l m).Canonical := by
  refine Value.canonical_ofMembers ?_
  simp only [List.forall_mem_cons]
  exact ⟨Value.canonical_string _, Value.canonical_ofOption Value.canonical_int _, nofun⟩

/-- The canonical form of a request that passes its checks has plain filters. -/
theorem plain_of_prepare {r r' : QueryRequest} {compiled : CompiledQuery}
    (h : e.prepare r = .ok (r', compiled)) (hr : ∀ f ∈ r.filters.entries, f.2.toJson.Proper) :
    r'.Plain := by
  obtain ⟨hcanonical, resolved, hresolved, -⟩ := prepare_eq_ok.mp h
  obtain ⟨normal, hnormal, heq⟩ := bind_eq_ok.mp hcanonical
  refine ⟨(resolve_eq_ok.mp hresolved).plain, fun f hf => hr f ?_⟩
  cases heq
  exact QueryRequest.mem_of_normalize (mapError_eq_ok.mp hnormal) hf

/-- The statement of a request is determined by its canonical form. -/
theorem compiled_eq_of_prepare {r s r' : QueryRequest} {out out' : CompiledQuery}
    (hr : e.prepare r = .ok (r', out)) (hs : e.prepare s = .ok (r', out')) : out = out' := by
  obtain ⟨-, resolved, hresolved, hout⟩ := prepare_eq_ok.mp hr
  obtain ⟨-, resolved', hresolved', hout'⟩ := prepare_eq_ok.mp hs
  obtain rfl : resolved = resolved' := Except.ok.inj (hresolved.symm.trans hresolved')
  exact Except.ok.inj (hout.symm.trans hout')

variable {c d : Call} {p q : Lookup}

/-- A result is kept under the endpoint of its call. -/
theorem LooksUp.endpoint_eq (h : e.LooksUp c p) : p.endpoint = c.endpoint := by
  cases h <;> rfl

/-- A result is kept under a payload in canonical order. -/
theorem LooksUp.canonical (h : e.LooksUp c p) (hc : c.Proper) : p.payload.Canonical := by
  cases h with
  | query hr => exact (plain_of_prepare hr hc).canonical_toJson
  | dashboard r => exact r.canonical_toJson
  | comparison _ => exact ComparisonRequest.canonical_toJson _
  | listing _ => exact canonical_listingPayload _ _

/-- At one endpoint, the payload determines the statements. -/
theorem LooksUp.statements_eq (hp : e.LooksUp c p) (hq : e.LooksUp d q) (hc : c.Proper)
    (hd : d.Proper) (hendpoint : c.endpoint = d.endpoint) (hpayload : p.payload = q.payload) :
    p.statements = q.statements := by
  cases hp with
  | query hr =>
    cases hq with
    | query hs =>
      obtain rfl := (plain_of_prepare hr hc).toJson_inj (plain_of_prepare hs hd) hpayload
      rw [compiled_eq_of_prepare hr hs]
    | _ => cases hendpoint
  | dashboard r =>
    cases hq with
    | dashboard s => rw [DashboardRequest.toJson_inj hpayload]
    | _ => cases hendpoint
  | comparison hr =>
    cases hq with
    | comparison hs => rw [ComparisonRequest.toJson_inj hpayload]
    | _ => cases hendpoint
  | listing hl =>
    cases hq with
    | listing hk =>
      obtain ⟨rfl, hlimit⟩ := listingPayload_inj hpayload
      rw [hlimit, hk] at hl
      rw [Except.ok.inj hl]
    | _ => cases hendpoint

/-- Two calls that pass their checks have one key only if they are calls of one endpoint and run the
same statements, with the same parameters, provided that the digest does not collide on the two
texts that the keys are taken over. The keys and the statements are those that the calls use. -/
theorem statements_eq_of_key_eq (hp : e.lookup c = .ok p) (hq : e.lookup d = .ok q)
    (hc : c.Proper) (hd : d.Proper)
    (hinj : Set.InjOn Sha256.digest
      {p.payload.canonicalText.toUTF8.toList, q.payload.canonicalText.toUTF8.toList})
    (hkey : p.key = q.key) :
    c.endpoint = d.endpoint ∧ p.statements = q.statements ∧ e.Uses c p ∧ e.Uses d q := by
  have huses : e.Uses c p ∧ e.Uses d q := ⟨uses_of_lookup hp, uses_of_lookup hq⟩
  have hp := looksUp_of_lookup hp
  have hq := looksUp_of_lookup hq
  obtain ⟨hscope, htext⟩ := (fingerprint_eq_iff hinj).mp hkey
  have hendpoint : c.endpoint = d.endpoint := by
    rw [← hp.endpoint_eq, ← hq.endpoint_eq]
    exact Endpoint.scope_inj hscope
  have hpayload := (hp.canonical hc).eq_of_canonicalText (hq.canonical hd) htext
  exact ⟨hendpoint, hp.statements_eq hq hc hd hendpoint hpayload, huses⟩

end Engine

/-- An engine over the restaurant catalog whose database answers every statement with no rows. -/
def restaurantEngine : Engine Unit where
  catalog := .restaurant
  defaultLimit := 100
  maxLimit := 1000
  execute := fun _ s => (some [], s)

/-- The first day of 2025. -/
def newYear : Date := ⟨2025, 1, 1, by decide⟩

/-- Asks for the revenue of each channel since new year, with the first day as a filter. -/
def revenueByFilter : QueryRequest where
  metrics := [" faturamento", "faturamento"]
  dimensions := ["channel"]
  filters := .ofList [("data_venda_gte", .scalar (.string "2025-01-01")),
    ("produto", .list [.string "Pizza"])]

/-- Asks for the same with a range of days, and with the default limit. -/
def revenueByRange : QueryRequest where
  metrics := ["faturamento"]
  dimensions := ["channel "]
  filters := .ofList [("produto", .list [.string "Pizza"])]
  dateRange := some ⟨some newYear, none⟩
  limit := some 100

/-- A filter for the first day and a range of days, or no limit and the default one, make two
requests with one key; both run one statement. -/
theorem Engine.statements_eq_of_key_eq_newYear : ∃ p q : Lookup,
    restaurantEngine.lookup (.query revenueByFilter) = .ok p ∧
      restaurantEngine.lookup (.query revenueByRange) = .ok q ∧ p.key = q.key ∧
      (Call.query revenueByFilter).Proper ∧ (Call.query revenueByRange).Proper ∧
      Set.InjOn Sha256.digest
        {p.payload.canonicalText.toUTF8.toList, q.payload.canonicalText.toUTF8.toList} ∧
      p.statements = q.statements ∧ restaurantEngine.Uses (.query revenueByFilter) p ∧
      restaurantEngine.Uses (.query revenueByRange) q := by
  have hcanonical :
      restaurantEngine.canonical revenueByFilter = restaurantEngine.canonical revenueByRange := by
    rfl
  have hlookup : restaurantEngine.lookup (.query revenueByFilter) =
      restaurantEngine.lookup (.query revenueByRange) := by
    rw [Engine.lookup, Engine.lookup, Engine.prepare, Engine.prepare, hcanonical]
  have hok : (restaurantEngine.lookup (.query revenueByFilter)).isOk := by decide +kernel
  cases hp : restaurantEngine.lookup (.query revenueByFilter) with
  | error fault =>
    rw [hp] at hok
    contradiction
  | ok p =>
    have hq := hlookup.symm.trans hp
    have hpizza : (FilterInput.list [.string "Pizza"]).toJson.Proper := ⟨trivial, trivial⟩
    have hc : (Call.query revenueByFilter).Proper := fun f hf => by
      obtain rfl | hf := List.mem_cons.mp (Dictionary.mem_of_mem_ofList hf)
      · exact trivial
      · exact List.mem_singleton.mp hf ▸ hpizza
    have hd : (Call.query revenueByRange).Proper := fun f hf =>
      List.mem_singleton.mp (Dictionary.mem_of_mem_ofList hf) ▸ hpizza
    have hinj : Set.InjOn Sha256.digest
        {p.payload.canonicalText.toUTF8.toList, p.payload.canonicalText.toUTF8.toList} := by
      rw [Set.pair_eq_singleton]
      exact Set.injOn_singleton _ _
    exact ⟨p, p, rfl, hq, rfl, hc, hd, hinj,
      (Engine.statements_eq_of_key_eq hp hq hc hd hinj rfl).2⟩
end SalesQuery
