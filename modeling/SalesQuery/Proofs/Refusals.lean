import SalesQuery.Http.Server
import SalesQuery.Proofs.Invalidation

/-!
# Refusals

A request is refused before the engine asks the cache or the database for anything, so that a refusal
is the same whatever these hold and leaves them as they are (`Server.refused_alone`). Where a key is
configured, a request without it is refused on every route that is not the one for health
(`Server.kept_out`).

Both are statements about one request and every server that differs from the given one in its
database only. A response that all these servers give, at every moment and in every session, which
stays as it is, is given without a call of the store, since no call goes unnoticed in every session
(`Store.exists_changed`).
-/

namespace SalesQuery

open Json (Value)

/-- No call of the store goes unnoticed: some store is changed by every method that is called with a
key, or with a pattern that the key matches. -/
theorem Store.exists_changed (now : Nat) (key : String) : ∃ s : Store,
    (s.get now key).2 ≠ s ∧ (∀ text ttl, (s.set now key text ttl).2 ≠ s) ∧ (s.delete key).2 ≠ s ∧
      (∀ pattern : KeyPattern, pattern.matchesKey key = true →
        (s.deleteMatching pattern).2 ≠ s) ∧ (s.info now).2 ≠ s := by
  -- Two entries have expired: the one under the key, and one that goes when another is written.
  let other := key ++ "?"
  let s : Store := ⟨((∅ : Dictionary StoredText).insert key ⟨"", 0⟩).insert other ⟨"", 0⟩⟩
  have hkey : s.entries.get? key = some ⟨"", 0⟩ := by
    rw [Dictionary.get?_insert, Dictionary.get?_insert]
    simp
  have hother : s.entries.get? other = some ⟨"", 0⟩ := by
    rw [Dictionary.get?_insert, if_pos rfl]
  have hchanged {s' : Store} {k : String} (hk : s.entries.get? k = some ⟨"", 0⟩)
      (hnone : s'.entries.get? k = none) : s' ≠ s := by
    rintro rfl
    rw [hk] at hnone
    contradiction
  have hpurged : (s.purge now).entries.get? other = none := by
    rw [purge, get?_keep, hother]
    simp
  refine ⟨s, hchanged hkey ?_, fun text ttl => hchanged hother ?_, hchanged hkey ?_,
    fun pattern hpattern => hchanged hkey ?_, hchanged hother hpurged⟩
  · rw [get, hkey]
    simp [Dictionary.get?_erase]
  · have hne : key ≠ other := by
      intro heq
      have hlength := congrArg String.length heq
      simp [other] at hlength
    rcases Nat.lt_or_ge (now + ttl) clockEnd with hlt | hle
    · rw [set_of_lt hlt, Dictionary.get?_insert, if_neg hne, hpurged]
    · rw [set_of_le hle, hpurged]
  · rw [delete, Dictionary.get?_erase, if_pos rfl]
  · rw [deleteMatching, get?_keep, hkey]
    simp [hpattern]

/-- The engine over another database. -/
def Engine.over {σ τ : Type} (e : Engine σ) (execute : Executor τ) : Engine τ where
  catalog := e.catalog
  defaultLimit := e.defaultLimit
  maxLimit := e.maxLimit
  execute := execute

namespace Http

/-- The server over another database. -/
def Server.over {σ τ : Type} (server : Server σ) (execute : Executor τ) : Server τ where
  engine := server.engine.over execute
  apiKey := server.apiKey
  allowedOrigins := server.allowedOrigins

/-- A response that refuses the request: its status is one from 400 to 499. -/
def Response.Refuses (response : Response) : Prop := 400 ≤ response.status ∧ response.status < 500

instance (response : Response) : Decidable response.Refuses :=
  inferInstanceAs (Decidable (_ ∧ _))

/-- Whether a response refuses the request is told by its status. -/
theorem Response.refuses_congr {a b : Response} (h : a.status = b.status) :
    a.Refuses ↔ b.Refuses := by
  rw [Refuses, Refuses, h]

/-! ## Behaviours -/

/-- What is answered over each database, at each moment and in each session. -/
abbrev Behaviour := ∀ τ : Type, Executor τ → Moment → Session τ → Answer τ

namespace Behaviour

/-- One response is given everywhere, and the session stays as it is. -/
def Gives (b : Behaviour) (response : Response) : Prop :=
  ∀ (τ : Type) (execute : Executor τ) (m : Moment) (s : Session τ),
    b τ execute m s = (.ok response, s)

/-- No answer is a response that refuses. -/
def Serves (b : Behaviour) : Prop :=
  ∀ (τ : Type) (execute : Executor τ) (m : Moment) (s : Session τ) (response : Response),
    (b τ execute m s).1 = .ok response → ¬response.Refuses

/-- Whether to refuse is decided without the database, the moment and the session. -/
def Decided (b : Behaviour) : Prop := (∃ response, b.Gives response) ∨ b.Serves

/-- What is done to one response is done to it everywhere. -/
theorem Gives.map {b : Behaviour} {response : Response} (h : b.Gives response)
    (f : Response → Response) :
    Gives (fun τ execute m s => ((b τ execute m s).1.map f, (b τ execute m s).2)) (f response) :=
  fun τ execute m s =>
    congrArg (fun answer : Answer τ => (answer.1.map f, answer.2)) (h τ execute m s)

/-- What is done to the responses without a change of their statuses keeps the decision. -/
theorem Decided.map {b : Behaviour} (h : b.Decided) {f : Response → Response}
    (hf : ∀ response, (f response).status = response.status) :
    Decided fun τ execute m s => ((b τ execute m s).1.map f, (b τ execute m s).2) := by
  obtain ⟨response, hgives⟩ | hserves := h
  · exact .inl ⟨f response, hgives.map f⟩
  · refine .inr fun τ execute m s response hresponse hrefuses => ?_
    obtain ⟨served, hserved, rfl⟩ := map_eq_ok.mp hresponse
    exact hserves τ execute m s served hserved ((Response.refuses_congr (hf served)).mp hrefuses)

end Behaviour

/-! ## The engine -/

/-- The fault of a failing database does not refuse the request. -/
theorem not_refuses_database : ¬(Response.ofFault .database).Refuses := by decide

/-- A value does not refuse the request. -/
theorem not_refuses_ofValue (v : Value) : ¬(Response.ofValue v).Refuses := by
  simp [Response.Refuses, Response.ofValue]

/-- A result that is looked up and computed refuses the request only if the computation does. -/
theorem not_refuses_getOrCompute {τ α β : Type}
    {compute : Backend τ → Except ServiceFault α × Backend τ}
    (hcompute : ∀ b fault, (compute b).1 = .error fault → fault = .database) (m : Moment)
    (s : Session τ) (codec : Codec α) (scope : String) (payload : Value) (f : α × Bool → β)
    (encode : β → Value) (response : Response)
    (hresponse : (respond encode ((s.getOrCompute m codec scope payload compute).1.map (Except.map f),
      (s.getOrCompute m codec scope payload compute).2)).1 = .ok response) :
    ¬response.Refuses := by
  obtain ⟨mapped, hmapped, rfl⟩ := map_eq_ok.mp hresponse
  obtain ⟨outcome, houtcome, rfl⟩ := map_eq_ok.mp hmapped
  cases outcome with
  | ok p => exact not_refuses_ofValue _
  | error fault =>
    have haside := s.cache.cacheAside m codec scope (some payload) none compute s.backend
    -- A fault is no kept result and nothing that broke off, so it is what the computation gave.
    have hnone (a : α) : ¬s.cache.Finds m codec scope (some payload) a := fun hfinds =>
      nomatch houtcome.symm.trans ((haside.hit_iff a).mpr hfinds)
    have hcomputed := houtcome.symm.trans (haside.answers hnone fun hbreaks =>
      nomatch houtcome.symm.trans (haside.breaksOff_iff.mpr ⟨hnone, hbreaks⟩))
    cases hfault : (compute s.backend).1 with
    | ok a => simp [hfault, Except.map] at hcomputed
    | error e =>
      obtain rfl := hcompute _ _ hfault
      obtain rfl : fault = .database := by simpa [hfault, Except.map] using hcomputed
      exact not_refuses_database

/-- A statement fails only as the database does. -/
theorem eq_database_of_fetch {τ : Type} {execute : Executor τ} {q : CompiledQuery} {b : Backend τ}
    {fault : ServiceFault} (h : (b.fetch execute q).1 = .error fault) : fault = .database := by
  rw [Backend.fetch_eq] at h
  cases hrows : (execute q b.database).1 with
  | none => simpa [hrows, eq_comm] using h
  | some rows => simp [hrows] at h

/-- So do two statements. -/
theorem eq_database_of_fetchBoth {τ : Type} {execute : Executor τ} {p q : CompiledQuery}
    {b : Backend τ} {fault : ServiceFault} (h : (b.fetchBoth execute p q).1 = .error fault) :
    fault = .database := by
  rw [Backend.fetchBoth] at h
  split at h
  · rename_i e after heq
    obtain rfl : e = fault := Except.error.inj h
    exact eq_database_of_fetch (congrArg Prod.fst heq)
  · rename_i rows after heq
    cases hsecond : (after.fetch execute q).1 with
    | ok others => simp [hsecond, Except.map] at h
    | error e =>
      obtain rfl : e = fault := by simpa [hsecond, Except.map] using h
      exact eq_database_of_fetch hsecond

/-- What is made of rows fails only as they do. -/
theorem eq_database_of_map {α β : Type} {x : Except ServiceFault α} {f : α → β}
    (hx : ∀ fault, x = .error fault → fault = .database) {fault : ServiceFault}
    (h : x.map f = .error fault) : fault = .database := by
  cases x with
  | ok a => cases h
  | error e => exact hx fault (Except.error.inj h ▸ rfl)

section Endpoints

variable {σ : Type} (e : Engine σ)

/-- A query is refused by its checks or not at all. -/
theorem decided_query (q : QueryRequest) : Behaviour.Decided fun _ execute m s =>
    respond QueryAnswer.toJson ((e.over execute).query m q s) := by
  cases hprepare : e.prepare q with
  | error fault =>
    refine .inl ⟨.ofFault fault, fun τ execute m s => ?_⟩
    have hover : (e.over execute).prepare q = .error fault := hprepare
    simp only [Engine.query, hover]
    rfl
  | ok p =>
    refine .inr fun τ execute m s => ?_
    have hover : (e.over execute).prepare q = .ok p := hprepare
    simp only [Engine.query_eq_getOrCompute hover]
    exact not_refuses_getOrCompute (fun _ _ => eq_database_of_fetch) _ _ _ _ _ _ _

/-- A statement is not asked for from the database. -/
theorem decided_translate (q : QueryRequest) : Behaviour.Decided fun _ execute _ s =>
    respond CompiledQuery.toJson (.ok ((e.over execute).translate q), s) := by
  cases htranslate : e.translate q with
  | error fault =>
    refine .inl ⟨.ofFault fault, fun τ execute m s => ?_⟩
    have hover : (e.over execute).translate q = .error fault := htranslate
    simp only [hover, respond]
    rfl
  | ok compiled =>
    refine .inl ⟨.ofValue compiled.toJson, fun τ execute m s => ?_⟩
    have hover : (e.over execute).translate q = .ok compiled := htranslate
    simp only [hover, respond]
    rfl

/-- A dashboard is not refused. -/
theorem decided_dashboard (q : DashboardRequest) : Behaviour.Decided fun _ execute m s =>
    respond DashboardAnswer.toJson ((e.over execute).dashboard m q s) := by
  refine .inr fun τ execute m s => ?_
  simp only [Engine.dashboard]
  exact not_refuses_getOrCompute (fun _ _ => eq_database_of_map fun _ => eq_database_of_fetch) m s
    _ _ _ _ _

/-- A comparison is refused by its checks or not at all. -/
theorem decided_compare (q : ComparisonRequest) : Behaviour.Decided fun _ execute m s =>
    respond ComparisonAnswer.toJson ((e.over execute).compare m q s) := by
  cases hcheck : q.check with
  | error fault =>
    refine .inl ⟨.ofFault (.request fault), fun τ execute m s => ?_⟩
    simp only [Engine.compare, hcheck]
    rfl
  | ok p =>
    refine .inr fun τ execute m s => ?_
    simp only [Engine.compare, hcheck]
    exact not_refuses_getOrCompute
      (fun _ _ => eq_database_of_map fun _ => eq_database_of_fetchBoth) m s _ _ _ _ _

/-- A listing is refused by its checks or not at all. -/
theorem decided_list (l : Listing) (limit : Option Int) : Behaviour.Decided fun _ execute m s =>
    respond ListingAnswer.toJson ((e.over execute).list m l limit s) := by
  cases hquery : l.query (Engine.listingLimit l limit) with
  | error fault =>
    refine .inl ⟨.ofFault (.request fault), fun τ execute m s => ?_⟩
    simp only [Engine.list, hquery]
    rfl
  | ok p =>
    refine .inr fun τ execute m s => ?_
    simp only [Engine.list, hquery]
    exact not_refuses_getOrCompute
      (fun _ _ => eq_database_of_map fun _ => eq_database_of_fetch) m s _ _ _ _ _

/-- A removal is refused by its checks or not at all. -/
theorem decided_invalidateQuery (q : QueryRequest) (encode : Bool → Value) :
    Behaviour.Decided fun _ execute m s =>
      respond encode ((e.over execute).invalidateQuery m q s) := by
  cases hcanonical : e.canonical q with
  | error fault =>
    refine .inl ⟨.ofFault fault, fun τ execute m s => ?_⟩
    have hover : (e.over execute).canonical q = .error fault := hcanonical
    simp only [Engine.invalidateQuery, hover]
    rfl
  | ok p =>
    refine .inr fun τ execute m s response hresponse => ?_
    have hover : (e.over execute).canonical q = .ok p := hcanonical
    simp only [Engine.invalidateQuery, hover] at hresponse
    obtain rfl := Except.ok.inj hresponse
    exact not_refuses_ofValue _

end Endpoints

/-! ## The routes -/

/-- Whether the body and the query string are ones that the route reads. -/
def Route.accepts (r : Request) : Route → Bool
  | .query | .translate | .invalidateQuery => (readBody QueryRequest.decoder r).isOk
  | .compare => (readBody ComparisonRequest.decoder r).isOk
  | .dashboard => (readParams DashboardParams.fields {} r).isOk
  | .listing .products => (readParams limitFields none r).isOk
  | .clearCache => (readParams patternFields none r).isOk
  | _ => true

/-- No route answers the question what a page may send. -/
theorem Route.options_not_mem (route : Route) : "OPTIONS" ∉ route.methods := by
  cases route <;> simp [methods]

/-- A body that is not read refuses the request. -/
theorem refuses_of_readBody {α : Type} {decode : Json.Decoder α} {r : Request} {status : Nat}
    (h : readBody decode r = .error status) : ({ status } : Response).Refuses := by
  rw [readBody] at h
  split at h
  · obtain rfl := Except.error.inj h
    decide
  · split at h
    · obtain rfl := Except.error.inj h
      decide
    · cases hread : decode.ofBeginning (Json.charsOfBytes false r.body) with
      | ok a => simp [hread, Except.mapError] at h
      | error flaw =>
        rw [hread] at h
        obtain rfl := Except.error.inj h
        cases flaw with
        | illFormed => decide
        | misfit => decide

/-- So does a query string that is not read. -/
theorem refuses_of_readParams {α : Type} {fields : List (Json.Decoder.Field α)} {initial : α}
    {r : Request} {status : Nat} (h : readParams fields initial r = .error status) :
    ({ status } : Response).Refuses := by
  rw [readParams] at h
  split at h
  · cases h
  · obtain rfl := Except.error.inj h
    decide

namespace Server

variable {σ : Type} (server : Server σ) (r : Request)

/-- What the server answers to a request over each database. -/
def behaviour : Behaviour := fun _ execute m s => (server.over execute).answer m r s

/-- How a route that asks for the key behaves. -/
structure AsksForKey (b : Behaviour) (accepts : Bool) : Prop where
  /-- Whether to refuse the request is decided without the database. -/
  decided : b.Decided
  /-- A request without the key is refused over every database, for want of the key if it can be
  read. -/
  keyless : server.authorizes r = false → ∃ response : Response,
    b.Gives response ∧ response.Refuses ∧ (accepts = true → response = .ofFault .unauthorized)

/-- An endpoint that decides without the database behaves so once the key is asked for. -/
theorem asksForKey_guarded {α : Type} (input : Except Nat α)
    (hinput : ∀ status, input = .error status → ({ status } : Response).Refuses)
    {answer : α → Behaviour} (hanswer : ∀ a, (answer a).Decided) :
    server.AsksForKey r (fun τ execute m s =>
      (server.over execute).guarded r input (fun a s => answer a τ execute m s) s) input.isOk := by
  cases input with
  | error status =>
    exact {
      decided := .inl ⟨{ status }, fun _ _ _ _ => rfl⟩
      keyless := fun _ => ⟨{ status }, fun _ _ _ _ => rfl, hinput status rfl, nofun⟩ }
  | ok a =>
    have hrefused (hkey : server.authorizes r = false) : Behaviour.Gives
        (fun τ execute m s => (server.over execute).guarded r (.ok a)
          (fun a s => answer a τ execute m s) s) (.ofFault .unauthorized) := by
      have hne : ¬server.authorizes r = true := by simp [hkey]
      exact fun _ _ _ _ => if_neg hne
    refine {
      decided := ?_
      keyless := fun hkey => ⟨.ofFault .unauthorized, hrefused hkey, by decide, fun _ => rfl⟩ }
    cases hkey : server.authorizes r with
    | false => exact .inl ⟨.ofFault .unauthorized, hrefused hkey⟩
    | true =>
      -- With the key, the route is its endpoint.
      have hserved : (fun τ execute m s => (server.over execute).guarded r (.ok a)
          (fun a s => answer a τ execute m s) s) = answer a := by
        funext τ execute m s
        exact if_pos hkey
      rw [hserved]
      exact hanswer a

/-- Every route but the one for health asks for the key. -/
theorem asksForKey_handle {route : Route} (hroute : route ≠ .health) :
    server.AsksForKey r (fun _ execute m s => (server.over execute).handle m r s route)
      (route.accepts r) := by
  cases route with
  | health => contradiction
  | query =>
    simp only [handle]
    exact server.asksForKey_guarded r _ (fun _ => refuses_of_readBody)
      (decided_query server.engine)
  | translate =>
    simp only [handle]
    exact server.asksForKey_guarded r _ (fun _ => refuses_of_readBody)
      (decided_translate server.engine)
  | dashboard =>
    simp only [handle]
    refine server.asksForKey_guarded r _ (fun _ => refuses_of_readParams) fun params => ?_
    cases params.toRequest with
    | error fault => exact .inl ⟨.ofFault (.request fault), fun _ _ _ _ => rfl⟩
    | ok request => exact decided_dashboard server.engine request
  | compare =>
    simp only [handle]
    exact server.asksForKey_guarded r _ (fun _ => refuses_of_readBody)
      (decided_compare server.engine)
  | listing l =>
    cases l with
    | products =>
      simp only [handle]
      exact server.asksForKey_guarded r _ (fun _ => refuses_of_readParams)
        (decided_list server.engine _)
    | stores | channels | regions =>
      simp only [handle]
      exact server.asksForKey_guarded r (.ok ()) nofun fun _ => decided_list server.engine _ none
  | cacheStats =>
    simp only [handle]
    exact server.asksForKey_guarded r (.ok ()) nofun fun _ =>
      .inr fun _ _ _ _ _ hresponse => by
        obtain ⟨stats, -, rfl⟩ := map_eq_ok.mp hresponse
        exact not_refuses_ofValue _
  | clearCache =>
    simp only [handle]
    exact server.asksForKey_guarded r _ (fun _ => refuses_of_readParams) fun _ =>
      .inr fun _ _ _ _ _ hresponse => by
        obtain rfl := Except.ok.inj hresponse
        exact not_refuses_ofValue _
  | invalidateQuery =>
    simp only [handle]
    exact server.asksForKey_guarded r _ (fun _ => refuses_of_readBody) fun q =>
      decided_invalidateQuery server.engine q _

/-- Every route decides without the database. -/
theorem decided_handle (route : Route) : Behaviour.Decided fun _ execute m s =>
    (server.over execute).handle m r s route := by
  by_cases hroute : route = .health
  · subst hroute
    exact .inl ⟨_, fun _ _ _ _ => rfl⟩
  · exact (server.asksForKey_handle r hroute).decided

/-! ## The whole answer -/

theorem status_bodyFor (response : Response) :
    (bodyFor r response).status = response.status := by
  rw [bodyFor]
  split
  · rfl
  · rfl

/-- A path and a method lead to an answer of their route, or are refused at once. -/
theorem dispatch_eq (m : Moment) (s : Session σ) {route : Route}
    (hpath : Route.ofPath? r.path = some route) (hmethod : r.method ∈ route.methods) :
    server.dispatch m r s =
      ((server.handle m r s route).1.map (bodyFor r), (server.handle m r s route).2) := by
  simp only [dispatch, hpath, if_pos hmethod]

/-- Whether a request is refused is decided without the database. -/
theorem decided_dispatch : Behaviour.Decided fun _ execute m s =>
    (server.over execute).dispatch m r s := by
  cases hpath : Route.ofPath? r.path with
  | none =>
    refine .inl ⟨{ status := 404 }, fun τ execute m s => ?_⟩
    simp only [dispatch, hpath]
  | some route =>
    by_cases hmethod : r.method ∈ route.methods
    · simp only [dispatch_eq _ r _ _ hpath hmethod]
      exact (server.decided_handle r route).map (status_bodyFor r)
    · refine .inl ⟨{ status := 405, allow := some route.allow }, fun τ execute m s => ?_⟩
      simp only [dispatch, hpath, if_neg hmethod]

/-- A response with the origin that may read it. -/
def readableBy (response : Response) : Response :=
  if server.origins.isEmpty then response
  else { response with allowOrigin := server.allowedOrigin? r }

theorem status_readableBy (response : Response) :
    (server.readableBy r response).status = response.status := by
  rw [readableBy]
  split
  · rfl
  · rfl

/-- What a server without a list of origins, or one with such a list, answers. -/
theorem answer_eq (m : Moment) (s : Session σ) :
    server.answer m r s =
      if server.origins.isEmpty = false ∧ r.method = "OPTIONS" then (.ok (server.preflight r), s)
      else ((server.dispatch m r s).1.map (server.readableBy r), (server.dispatch m r s).2) := by
  unfold answer readableBy
  cases server.origins.isEmpty with
  | true =>
    refine Prod.ext ?_ rfl
    cases hresponse : (server.dispatch m r s).1 with
    | ok response => simp [hresponse, Except.map]
    | error overflow => simp [hresponse, Except.map]
  | false =>
    by_cases hmethod : r.method = "OPTIONS"
    · simp [hmethod]
    · simp [hmethod]

/-- A request asks what it may send, which the server tells at once, or is answered as without other
origins, apart from the origin that may read the response. -/
theorem behaviour_cases :
    (server.origins.isEmpty = false ∧ r.method = "OPTIONS" ∧
      (server.behaviour r).Gives (server.preflight r)) ∨
    (server.behaviour r = fun _ execute m s =>
      (((server.over execute).dispatch m r s).1.map (server.readableBy r),
        ((server.over execute).dispatch m r s).2)) := by
  by_cases h : server.origins.isEmpty = false ∧ r.method = "OPTIONS"
  · exact .inl ⟨h.1, h.2, fun τ execute m s =>
      ((server.over execute).answer_eq r m s).trans (if_pos h)⟩
  · refine .inr ?_
    funext τ execute m s
    exact ((server.over execute).answer_eq r m s).trans (if_neg h)

/-- Whether a request is refused is decided without the database. -/
theorem decided_behaviour : (server.behaviour r).Decided := by
  obtain ⟨-, -, hgives⟩ | hdispatch := server.behaviour_cases r
  · exact .inl ⟨server.preflight r, hgives⟩
  · rw [hdispatch]
    exact (server.decided_dispatch r).map (server.status_readableBy r)

/-- A request that is refused is refused over every database, at every moment and in every session,
and each session stays as it is: neither the database nor the store is asked for anything. -/
theorem refused_alone (m : Moment) (s : Session σ) {response : Response}
    (h : (server.answer m r s).1 = .ok response) (hrefuses : response.Refuses) :
    (server.answer m r s).2 = s ∧ (server.behaviour r).Gives response := by
  obtain ⟨given, hgives⟩ | hserves := server.decided_behaviour r
  · have hanswer : server.answer m r s = (.ok given, s) := hgives σ server.engine.execute m s
    rw [hanswer] at h
    obtain rfl := Except.ok.inj h
    rw [hanswer]
    exact ⟨rfl, hgives⟩
  · exact absurd hrefuses (hserves σ server.engine.execute m s response h)

end Server

/-- A server over the restaurant catalog that asks for a key. -/
def keyedServer : Server Unit where
  engine := restaurantEngine
  apiKey := some "secret"
  allowedOrigins := none

/-- Asks for no product at all, with the key. -/
def noProducts : Request where
  method := "GET"
  target := "/api/v1/analytics/dimensions/products?limit=0"
  headers := [("X-Api-Key", "secret")]

/-- A limit of zero is refused, over every database and in every session. -/
theorem Server.refused_alone_noProducts : ∃ response : Response,
    (keyedServer.answer {} noProducts (.start 60 ())).1 = .ok response ∧ response.Refuses ∧
      (keyedServer.behaviour noProducts).Gives response := by
  have hok : (keyedServer.answer {} noProducts (.start 60 ())).1.isOk := by decide +kernel
  obtain ⟨response, hresponse⟩ := exists_of_isOk hok
  have hstatus : (keyedServer.answer {} noProducts (.start 60 ())).1.toOption.map
      Response.status = some 400 := by decide +kernel
  rw [hresponse] at hstatus
  have hrefuses : response.Refuses := by
    rw [Response.Refuses, Option.some.inj hstatus]
    decide
  exact ⟨response, hresponse, hrefuses,
    (keyedServer.refused_alone noProducts {} (.start 60 ()) hresponse hrefuses).2⟩

namespace Server

variable {σ : Type} (server : Server σ) (r : Request)

/-! ## Requests without the key -/

/-- The response to a request without the key. -/
def unauthorizedResponse : Response where
  status := 401
  allowOrigin := server.allowedOrigin? r
  body := if r.method = "HEAD" then none
    else some (.ofMembers [("error", .string "authentication failed")])

/-- A request is kept out with a response. -/
structure KeptOut (response : Response) : Prop where
  /-- It is the response over every database, at every moment and in every session, and each session
  stays as it is. -/
  gives : (server.behaviour r).Gives response
  /-- It refuses the request, unless it tells the page of another origin what it may send. -/
  refuses : response.Refuses ∨
    server.origins.isEmpty = false ∧ r.method = "OPTIONS" ∧ response = server.preflight r
  /-- A request that its route reads is refused for want of the key. -/
  unauthorized : ∀ route, Route.ofPath? r.path = some route → r.method ∈ route.methods →
    route.accepts r = true → response = server.unauthorizedResponse r

variable {server r}

/-- A request without the key that is not about health is refused, wherever its path and its method
lead, and its response is the one for want of the key if the route reads it. -/
theorem dispatch_of_not_authorizes (h : server.authorizes r = false)
    (hhealth : ∀ route, Route.ofPath? r.path = some route → r.method ∈ route.methods →
      route ≠ .health) :
    ∃ response : Response, Behaviour.Gives (fun _ execute m s =>
        (server.over execute).dispatch m r s) response ∧
      response.Refuses ∧ ∀ route, Route.ofPath? r.path = some route → r.method ∈ route.methods →
        route.accepts r = true → response = bodyFor r (.ofFault .unauthorized) := by
  cases hpath : Route.ofPath? r.path with
  | none =>
    refine ⟨{ status := 404 }, fun τ execute m s => ?_, by decide, nofun⟩
    simp only [dispatch, hpath]
  | some route =>
    by_cases hmethod : r.method ∈ route.methods
    · obtain ⟨response, hgives, hrefuses, hunauthorized⟩ :=
        (server.asksForKey_handle r (hhealth route hpath hmethod)).keyless h
      refine ⟨bodyFor r response, fun τ execute m s => ?_,
        (Response.refuses_congr (status_bodyFor r response)).mpr hrefuses, ?_⟩
      · exact ((server.over execute).dispatch_eq r m s hpath hmethod).trans
          (hgives.map (bodyFor r) τ execute m s)
      · rintro _ ⟨⟩ - haccepts
        rw [hunauthorized haccepts]
    · refine ⟨{ status := 405, allow := some route.allow }, fun τ execute m s => ?_, ?_, ?_⟩
      · simp only [dispatch, hpath, if_neg hmethod]
      · simp [Response.Refuses]
      · rintro _ ⟨⟩ hmethod' -
        exact absurd hmethod' hmethod

/-- Without a list of origins, no origin is named in a response. -/
theorem readableBy_eq {response : Response} (h : response.allowOrigin = none) :
    server.readableBy r response = { response with allowOrigin := server.allowedOrigin? r } := by
  rw [readableBy]
  split
  · rename_i horigins
    have hnone : server.allowedOrigin? r = none := by
      rw [allowedOrigin?, List.isEmpty_iff.mp horigins]
      simp
    rw [hnone, ← h]
  · rfl

/-- The response for want of the key, as the origin of the request may read it. -/
theorem readableBy_unauthorized :
    server.readableBy r (bodyFor r (.ofFault .unauthorized)) = server.unauthorizedResponse r := by
  have hprivate : (bodyFor r (.ofFault .unauthorized)).allowOrigin = none := by
    rw [bodyFor]
    split
    · rfl
    · rfl
  rw [readableBy_eq hprivate, unauthorizedResponse, bodyFor]
  split
  · rfl
  · rfl

/-- Where a key is configured, a request that does not carry it, and that is not about health, is
kept out: it has no effect, it is refused, and nothing is told but that the key is missing, or what
can be told without it. -/
theorem kept_out {key : String} (hkey : server.apiKey = some key)
    (hr : r.textHeader? apiKeyHeader ≠ some key)
    (hhealth : ¬(Route.ofPath? r.path = some .health ∧ r.method ∈ Route.health.methods))
    (m : Moment) (s : Session σ) :
    ∃ response : Response, server.answer m r s = (.ok response, s) ∧
      server.KeptOut r response := by
  have hauthorizes : server.authorizes r = false := by
    rw [authorizes, hkey]
    simpa using hr
  have hroute : ∀ route, Route.ofPath? r.path = some route → r.method ∈ route.methods →
      route ≠ .health := by
    rintro route hpath hmethod rfl
    exact hhealth ⟨hpath, hmethod⟩
  obtain ⟨response, hgives, hrefuses, hunauthorized⟩ :=
    dispatch_of_not_authorizes hauthorizes hroute
  have hgiven {response : Response} (h : (server.behaviour r).Gives response) :
      server.answer m r s = (.ok response, s) := h σ server.engine.execute m s
  obtain ⟨horigins, hmethod, hpreflight⟩ | hdispatch := server.behaviour_cases r
  · refine ⟨server.preflight r, hgiven hpreflight, {
      gives := hpreflight
      refuses := .inr ⟨horigins, hmethod, rfl⟩
      unauthorized := fun route _ hmember _ => ?_ }⟩
    -- No route answers this method.
    exact absurd (hmethod ▸ hmember) route.options_not_mem
  · have hanswer : (server.behaviour r).Gives (server.readableBy r response) := by
      rw [hdispatch]
      exact hgives.map (server.readableBy r)
    refine ⟨server.readableBy r response, hgiven hanswer, {
      gives := hanswer
      refuses := .inl ((Response.refuses_congr (server.status_readableBy r response)).mpr hrefuses)
      unauthorized := fun route hpath hmember haccepts => ?_ }⟩
    rw [hunauthorized route hpath hmember haccepts, readableBy_unauthorized]

end Server

/-- Asks for the removal of all results, with a key in capitals. -/
def clearEverything : Request where
  method := "POST"
  target := "/api/v1/analytics/cache/clear?pattern=analytics:*"
  headers := [("X-Api-Key", "SECRET")]

/-- The wrong key removes nothing, whatever the cache holds. -/
theorem Server.kept_out_clearEverything :
    clearEverything.textHeader? apiKeyHeader ≠ some "secret" ∧
      Route.ofPath? clearEverything.path = some .clearCache ∧
      keyedServer.KeptOut clearEverything
        { status := 401, body := some (.ofMembers [("error", .string "authentication failed")]) } := by
  have hkey : clearEverything.textHeader? apiKeyHeader ≠ some "secret" := by decide +kernel
  have hpath : Route.ofPath? clearEverything.path = some .clearCache := by decide +kernel
  have hmethod : clearEverything.method ∈ Route.clearCache.methods := by decide +kernel
  have haccepts : Route.clearCache.accepts clearEverything = true := by decide +kernel
  have hhealth : ¬(Route.ofPath? clearEverything.path = some .health ∧
      clearEverything.method ∈ Route.health.methods) := by
    rw [hpath]
    exact fun h => nomatch h.1
  have hserver : keyedServer.apiKey = some "secret" := rfl
  obtain ⟨response, -, hkept⟩ := Server.kept_out hserver hkey hhealth {} (.start 60 ())
  rw [hkept.unauthorized .clearCache hpath hmethod haccepts] at hkept
  exact ⟨hkey, hpath, hkept⟩

end Http

end SalesQuery
