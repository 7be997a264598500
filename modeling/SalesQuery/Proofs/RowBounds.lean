import SalesQuery.Network.HostAddress
import SalesQuery.Proofs.Admissibility
import SalesQuery.Proofs.Faults
import SalesQuery.Proofs.RequestSpelling
import SalesQuery.Proofs.StatementText
import SalesQuery.Settings.Basic

/-!
# Rows of a statement

Every statement of a query is bounded in rows. The limits that are set in the environment are moved
into order first (`Settings.limits_ordered`). A request gets its limit, or else the default one,
when it is brought into its canonical form, and the limit is checked when that form is resolved. So
the statement is the one without bounds, followed by a limit in its range and by an offset if there
are rows to pass over (`Settings.row_bounds`).
-/

namespace SalesQuery

/-! ## Settings -/

/-- A number moved between two bounds lies between them. -/
theorem clamp_bounds {low high : Int} (h : low ≤ high) (n : Int) :
    low ≤ clamp low high n ∧ clamp low high n ≤ high := by
  rw [clamp]
  split
  · exact ⟨Int.le_refl low, h⟩
  · split
    · exact ⟨h, Int.le_refl high⟩
    · omega

namespace Settings

/-- The limits are in order, whatever the environment sets them to and wherever its hosts lead. -/
theorem limits_ordered {resolve : Resolver} {env : Environment} {s : Settings}
    (h : ofEnvironment resolve env = .ok s) :
    1 ≤ s.defaultLimit ∧ s.defaultLimit ≤ s.maxLimit ∧ s.maxLimit ≤ 1000 := by
  unfold ofEnvironment at h
  obtain ⟨raw, -, h⟩ := bind_eq_ok.mp h
  obtain ⟨address, -, h⟩ := bind_eq_ok.mp h
  split at h
  · obtain ⟨cache, -, h⟩ := bind_eq_ok.mp h
    obtain rfl := pure_eq_ok.mp h
    obtain ⟨hleast, hgreatest⟩ := clamp_bounds (show 1 ≤ hardMaxLimit by decide) raw.maxLimit
    obtain ⟨hone, hmax⟩ := clamp_bounds hleast raw.defaultLimit
    exact ⟨hone, hmax, hgreatest⟩
  · contradiction

/-- The engine over a catalog and a database, with the limits that are set. -/
def engine {σ : Type} (s : Settings) (c : Catalog) (execute : Executor σ) : Engine σ where
  catalog := c
  defaultLimit := s.defaultLimit
  maxLimit := s.maxLimit
  execute := execute

end Settings

/-! ## The text of a statement -/

/-- The fragments of a statement end in a text that is rendered as it stands. -/
theorem Fragment.render_append_sql (l : List Fragment) (text : String) (bound : Nat) :
    render bound (l ++ [.sql text]) = render bound l ++ [text] := by
  induction l generalizing bound with
  | nil => rfl
  | cons f l ih =>
    cases f with
    | sql before => rw [List.cons_append, render, render, ih, List.cons_append]
    | bind v => rw [List.cons_append, render, render, ih, List.cons_append, List.cons_append]

namespace Statement

/-- A statement without bounds on its rows. -/
def unbounded (s : Statement) : Statement := { s with limit := none, offset := none }

/-- A statement is the one without bounds, with the bounds after it. -/
theorem compiled_eq_unbounded (s : Statement) :
    s.compiled.params = s.unbounded.compiled.params ∧
      s.compiled.sql = s.unbounded.compiled.sql ++ s.limitClause ++ s.offsetClause := by
  have hparams (t : Statement) : t.compiled.params = t.predicates.flatMap Predicate.values :=
    t.filterMap_fragments
  have hsql (t : Statement) : t.compiled.sql =
      String.join (Fragment.render 0 (.sql t.fromClause :: t.whereClause)) ++ t.tailClauses := by
    show String.join (Fragment.render 0 ((.sql t.fromClause :: t.whereClause) ++
      [.sql t.tailClauses])) = _
    rw [Fragment.render_append_sql, String.join_append, String.join_cons, String.join_nil,
      String.append_empty]
  refine ⟨by rw [hparams, hparams]; rfl, ?_⟩
  -- The bounds stand in the last text, where those of the other statement are empty.
  rw [hsql, hsql]
  show _ ++ (s.groupClause ++ s.orderClause ++ s.limitClause ++ s.offsetClause) =
    _ ++ (s.groupClause ++ s.orderClause ++ "" ++ "") ++ s.limitClause ++ s.offsetClause
  simp only [String.append_empty, String.append_assoc]
  rfl

end Statement

/-- A query without bounds on its rows. -/
def ResolvedQuery.unbounded (q : ResolvedQuery) : ResolvedQuery :=
  { q with limit := none, offset := none }

/-- A request without bounds on its rows. -/
def QueryRequest.unbounded (r : QueryRequest) : QueryRequest :=
  { r with limit := none, offset := none }

/-- Without its bounds, a query has the statement without bounds. -/
theorem ResolvedQuery.Compiles.unbounded {c : Catalog} {q : ResolvedQuery} {s : Statement}
    (h : q.Compiles c s) : q.unbounded.Compiles c s.unbounded :=
  { h with limit := rfl, offset := rfl }

/-- Without its bounds, a request is resolved to the query without bounds. -/
theorem QueryRequest.Resolves.unbounded {c : Catalog} {maxLimit : Int} {r : QueryRequest}
    {q : ResolvedQuery} (h : r.Resolves c maxLimit q) :
    r.unbounded.Resolves c maxLimit q.unbounded :=
  { h with limit := ⟨rfl, rfl⟩, offset := ⟨rfl, rfl⟩ }

/-- The text by which rows are passed over: none unless their number is positive. -/
inductive PassesOver : Option Int → String → Prop
  /-- A positive number of rows is passed over. -/
  | rows {k : Int} (h : 0 < k) : PassesOver (some k) ("\nOFFSET " ++ toString k)
  /-- There is nothing to pass over. -/
  | nothing {offset : Option Int} (h : ∀ k ∈ offset, k ≤ 0) : PassesOver offset ""

/-- The statement of a request returns at most a number of rows, which is in its range: the
statement is the one without bounds, with the limit and the offset after it. -/
structure QueryRequest.RowBounded (c : Catalog) (maxLimit : Int) (r : QueryRequest) (n : Int)
    (out : CompiledQuery) : Prop where
  /-- At least one row may be returned. -/
  least : 1 ≤ n
  /-- No more rows are returned than may be asked for. -/
  greatest : n ≤ maxLimit
  /-- The limit and the offset stand at the end of the statement. -/
  statement : ∃ q body tail, r.unbounded.resolve c maxLimit = .ok q ∧ q.compile c = .ok body ∧
    out.params = body.params ∧ out.sql = body.sql ++ "\nLIMIT " ++ toString n ++ tail ∧
    PassesOver r.offset tail

/-- The offset of a statement passes over the rows that it says. -/
theorem Statement.passesOver (s : Statement) : PassesOver s.offset s.offsetClause := by
  rw [offsetClause]
  split
  · rename_i k hk
    rw [hk]
    split
    · exact .rows ‹_›
    · refine .nothing fun m hm => ?_
      obtain rfl := Option.some.inj hm
      omega
  · rename_i hnone
    rw [hnone]
    exact .nothing (by simp)

/-- A request with a limit that is resolved and compiles has a bounded statement. -/
theorem QueryRequest.rowBounded {c : Catalog} {maxLimit n : Int} {r : QueryRequest}
    {q : ResolvedQuery} {out : CompiledQuery} (hn : r.limit = some n)
    (hq : r.resolve c maxLimit = .ok q) (hout : q.compile c = .ok out) :
    r.RowBounded c maxLimit n out := by
  have hresolves := resolve_eq_ok.mp hq
  obtain ⟨s, hs, rfl⟩ := ResolvedQuery.compile_eq_ok.mp hout
  obtain ⟨hlimit, hcheck⟩ := hresolves.limit
  obtain ⟨hleast, hgreatest⟩ : 1 ≤ n ∧ n ≤ maxLimit := by
    rw [hn] at hcheck
    exact checkLimit_eq_ok.mp hcheck
  obtain ⟨hparams, hsql⟩ := s.compiled_eq_unbounded
  have hclause : s.limitClause = "\nLIMIT " ++ toString n := by
    rw [Statement.limitClause, hs.limit, hlimit, hn]
  have hoffset : s.offset = r.offset := hs.offset.trans hresolves.offset.1
  refine ⟨hleast, hgreatest, q.unbounded, s.unbounded.compiled, s.offsetClause,
    resolve_eq_ok.mpr hresolves.unbounded, ResolvedQuery.compile_eq_ok.mpr ⟨_, hs.unbounded, rfl⟩,
    hparams, ?_, hoffset ▸ s.passesOver⟩
  rw [hsql, hclause, String.append_assoc, String.append_assoc, String.append_assoc,
    String.append_assoc]

/-! ## Refusals -/

/-- A fault about a limit is about one that is out of its range. -/
def LimitFault (limit : Option Int) (maxLimit : Int) (fault : RequestFault) : Prop :=
  ∀ l m, fault = .limitOutOfRange l m → limit = some l ∧ m = maxLimit ∧ ¬(1 ≤ l ∧ l ≤ maxLimit)

section Refusals

variable {c : Catalog} {limit : Option Int} {maxLimit : Int}

/-- Dimensions are not refused for a limit. -/
theorem faultsOnly_resolveDimension (token : String) :
    FaultsOnly (LimitFault limit maxLimit) (resolveDimension c token) := by
  rw [resolveDimension]
  split
  · exact .ok _
  · exact .error (by rintro l m ⟨⟩)

/-- Metrics are not refused for a limit. -/
theorem faultsOnly_resolveMetric (token : String) :
    FaultsOnly (LimitFault limit maxLimit) (resolveMetric c token) := by
  rw [resolveMetric]
  split
  · exact .ok _
  · dsimp only
    split
    · exact .error (by rintro l m ⟨⟩)
    · split
      · exact .ok _
      · exact .error (by rintro l m ⟨⟩)

/-- Filters are not refused for a limit. -/
theorem faultsOnly_resolveFilter (field : String) (input : FilterInput) :
    FaultsOnly (LimitFault limit maxLimit) (resolveFilter c field input) := by
  rw [resolveFilter]
  split
  · exact .error (by rintro l m ⟨⟩)
  · split
    · exact .error (by rintro l m ⟨⟩)
    · exact .ok _

/-- Days are not refused for a limit. -/
theorem faultsOnly_checkRange (range : DateRange) :
    FaultsOnly (LimitFault limit maxLimit) (checkRange range) := by
  rw [checkRange]
  split
  · exact .error (by rintro l m ⟨⟩)
  · exact .ok ()

/-- A term of the order is not refused for a limit. -/
theorem faultsOnly_resolveOrder (columns : List String) (t : OrderInput) :
    FaultsOnly (LimitFault limit maxLimit) (resolveOrder columns t) := by
  have hdirection : FaultsOnly (LimitFault limit maxLimit) (resolveDirection t.direction) := by
    rw [resolveDirection]
    split
    · exact .ok _
    · split
      · exact .ok _
      · exact .error (by rintro l m ⟨⟩)
  unfold resolveOrder
  split
  · exact .error (by rintro l m ⟨⟩)
  · exact hdirection.bind fun _ _ => .ok _

/-- An offset is not refused for a limit. -/
theorem faultsOnly_checkOffset (n : Int) :
    FaultsOnly (LimitFault limit maxLimit) (checkOffset n) := by
  rw [checkOffset]
  split
  · exact .error (by rintro l m ⟨⟩)
  · exact .ok ()

/-- A limit is refused only if it is out of its range. -/
theorem faultsOnly_checkLimit {n : Int} :
    FaultsOnly (LimitFault (some n) maxLimit) (checkLimit n maxLimit) := by
  rw [checkLimit]
  split
  · rename_i hrange
    refine .error fun l m hfault => ?_
    obtain ⟨rfl, rfl⟩ := RequestFault.limitOutOfRange.inj hfault
    exact ⟨rfl, rfl, by omega⟩
  · exact .ok ()

/-- A request is refused for its limit only if it has one that is out of its range. -/
theorem faultsOnly_resolve (r : QueryRequest) :
    FaultsOnly (LimitFault r.limit maxLimit) (r.resolve c maxLimit) := by
  unfold QueryRequest.resolve
  refine (FaultsOnly.mapM fun token _ => faultsOnly_resolveDimension token).bind fun _ _ => ?_
  refine (FaultsOnly.mapM fun token _ => faultsOnly_resolveMetric token).bind fun _ _ => ?_
  dsimp only
  split
  · exact .error (by rintro l m ⟨⟩)
  · split
    · exact .error (by rintro l m ⟨⟩)
    · refine (FaultsOnly.mapM fun entry _ => faultsOnly_resolveFilter _ _).bind fun _ _ => ?_
      refine (FaultsOnly.forM_option fun range _ => faultsOnly_checkRange range).bind fun _ _ => ?_
      refine (FaultsOnly.mapM fun t _ => faultsOnly_resolveOrder _ t).bind fun _ _ => ?_
      refine (FaultsOnly.forM_option fun n hn => ?_).bind fun _ _ => ?_
      · rw [Option.mem_def.mp hn]
        exact faultsOnly_checkLimit
      · exact (FaultsOnly.forM_option fun n _ => faultsOnly_checkOffset n).bind fun _ _ => .ok _

/-- The days that a request asks for are not refused for a limit. -/
theorem faultsOnly_days (r : QueryRequest) : FaultsOnly (LimitFault limit maxLimit) r.days := by
  have hday (field : String) (input : FilterInput) :
      FaultsOnly (LimitFault limit maxLimit) (filterDay field input) := by
    unfold filterDay
    split
    · split
      · exact .ok _
      · exact .error (by rintro l m ⟨⟩)
    · exact .error (by rintro l m ⟨⟩)
  rw [QueryRequest.days]
  split
  · exact .ok _
  · rw [QueryRequest.filterRange]
    split
    · exact .ok _
    · refine (FaultsOnly.mapM_option fun input _ => hday _ input).bind fun _ _ => ?_
      exact (FaultsOnly.mapM_option fun input _ => hday _ input).bind fun _ _ => .ok _

end Refusals

/-- A refusal over a limit is over one that is out of its range. -/
def LimitRefusal (limit : Int) (maxLimit : Int) (fault : ServiceFault) : Prop :=
  ∀ refusal, fault = .request refusal → LimitFault (some limit) maxLimit refusal

/-- A check of a request that stops over a limit refuses the request over it. -/
theorem limitRefusal_mapError {α : Type} {n maxLimit : Int} {x : Except RequestFault α}
    (h : FaultsOnly (LimitFault (some n) maxLimit) x) :
    FaultsOnly (LimitRefusal n maxLimit) (x.mapError ServiceFault.request) := by
  refine FaultsOnly.mapError fun fault hfault refusal hrefusal => ?_
  obtain rfl := ServiceFault.request.inj hrefusal
  exact h fault hfault

namespace Engine

variable {σ : Type}

/-- A canonical form has the limit of the request, or else the default one, and keeps the offset. -/
theorem limit_of_canonical {e : Engine σ} {r r' : QueryRequest} (h : e.canonical r = .ok r') :
    r'.limit = some (r.limit.getD e.defaultLimit) ∧ r'.offset = r.offset := by
  rw [canonical_eq] at h
  obtain ⟨_, -, rfl⟩ := map_eq_ok.mp h
  exact ⟨rfl, rfl⟩

/-- The engine refuses a request over a limit only if the limit of its canonical form is out of its
range. -/
theorem faultsOnly_prepare (e : Engine σ) (r : QueryRequest) :
    FaultsOnly (LimitRefusal (r.limit.getD e.defaultLimit) e.maxLimit) (e.prepare r) := by
  -- The three steps in turn. Only the second one looks at the limit, after the first has set it.
  have hcanonical : FaultsOnly (LimitRefusal (r.limit.getD e.defaultLimit) e.maxLimit)
      (e.canonical r) := by
    rw [canonical_eq]
    exact (limitRefusal_mapError (faultsOnly_days r)).map
  refine hcanonical.bind fun r' hr => ?_
  have hresolve : FaultsOnly (LimitFault (some (r.limit.getD e.defaultLimit)) e.maxLimit)
      (r'.resolve e.catalog e.maxLimit) := by
    rw [← (limit_of_canonical hr).1]
    exact faultsOnly_resolve r'
  refine (limitRefusal_mapError hresolve).bind fun q _ => ?_
  have hcompile : FaultsOnly (LimitRefusal (r.limit.getD e.defaultLimit) e.maxLimit)
      ((q.compile e.catalog).mapError ServiceFault.compilation) := by
    refine FaultsOnly.mapError fun missing _ refusal hrefusal => ?_
    contradiction
  exact hcompile.bind fun _ _ => .ok _

end Engine

/-- The limits that an environment sets are in order, from one to a thousand, on every machine. Then
a request that the engine accepts has a statement that is bounded by its limit, or else by the
default one, and a request is refused over a limit only if it has one itself that is out of its
range. -/
theorem Settings.row_bounds {σ : Type} {resolve : Resolver} {env : Environment} {s : Settings}
    (hs : ofEnvironment resolve env = .ok s) (c : Catalog) (execute : Executor σ) :
    (1 ≤ s.defaultLimit ∧ s.defaultLimit ≤ s.maxLimit ∧ s.maxLimit ≤ 1000) ∧
      ∀ r : QueryRequest,
        (∀ r' out, (s.engine c execute).prepare r = .ok (r', out) →
          r'.RowBounded c s.maxLimit (r.limit.getD s.defaultLimit) out ∧ r'.offset = r.offset) ∧
        ∀ l m, (s.engine c execute).prepare r = .error (.request (.limitOutOfRange l m)) →
          r.limit = some l ∧ m = s.maxLimit ∧ ¬(1 ≤ l ∧ l ≤ s.maxLimit) := by
  have hlimits := limits_ordered hs
  refine ⟨hlimits, fun r => ⟨fun r' out hprepare => ?_, fun l m hrefused => ?_⟩⟩
  · obtain ⟨hcanonical, q, hq, hout⟩ := Engine.prepare_eq_ok.mp hprepare
    obtain ⟨hlimit, hoffset⟩ := Engine.limit_of_canonical hcanonical
    exact ⟨QueryRequest.rowBounded hlimit hq hout, hoffset⟩
  · obtain ⟨hlimit, hm, hrange⟩ :=
      (s.engine c execute).faultsOnly_prepare r _ hrefused _ rfl l m rfl
    refine ⟨?_, hm, hrange⟩
    cases hgiven : r.limit with
    | none =>
      -- The default limit would be out of its range, but the settings are in order.
      rw [hgiven] at hlimit
      obtain rfl : s.defaultLimit = l := Option.some.inj hlimit
      exact absurd ⟨hlimits.1, hlimits.2.1⟩ hrange
    | some n =>
      rw [hgiven] at hlimit
      exact hlimit

/-- Variables that name the host to listen on and set the default limit above the greatest one. -/
def fiftyRows : Environment :=
  [("DATABASE_URL", "postgres://localhost/sales"), ("ANALYTICS_LISTEN_HOST", "localhost"),
    ("ANALYTICS_MAX_LIMIT", "50"), ("ANALYTICS_DEFAULT_LIMIT", "5000")]

/-- A request for the revenue of each channel after the second. -/
def revenueAfterSecond : QueryRequest where
  metrics := ["faturamento"]
  dimensions := ["channel"]
  offset := some 2

/-- With fifty rows at most, a request without a limit gets a statement with fifty, and one for
fifty-one rows is refused. -/
theorem Settings.row_bounds_fifty : ∃ s : Settings, ofEnvironment .numeric fiftyRows = .ok s ∧
    (s.defaultLimit = 50 ∧ s.maxLimit = 50) ∧
    (∃ r' out, (s.engine .restaurant restaurantEngine.execute).prepare revenueAfterSecond =
        .ok (r', out) ∧ r'.RowBounded .restaurant 50 50 out ∧ r'.offset = some 2) ∧
    (s.engine .restaurant restaurantEngine.execute).prepare
        { revenueAfterSecond with limit := some 51 } = .error (.request (.limitOutOfRange 51 50)) ∧
      ¬((1 : Int) ≤ 51 ∧ (51 : Int) ≤ s.maxLimit) := by
  have hlimits : (ofEnvironment .numeric fiftyRows).toOption.map
      (fun s => (s.defaultLimit, s.maxLimit)) = some (50, 50) := by
    decide +kernel
  obtain ⟨s, hs⟩ : ∃ s, ofEnvironment .numeric fiftyRows = .ok s :=
    exists_of_isOk (by decide +kernel)
  rw [hs] at hlimits
  obtain ⟨hdefault, hmax⟩ := Prod.mk.inj (Option.some.inj hlimits)
  have hengine : s.engine .restaurant restaurantEngine.execute =
      { restaurantEngine with defaultLimit := 50, maxLimit := 50 } := by
    rw [engine, hdefault, hmax]
    rfl
  obtain ⟨⟨r', out⟩, hprepare⟩ : ∃ p, (s.engine .restaurant restaurantEngine.execute).prepare
      revenueAfterSecond = .ok p := by
    rw [hengine]
    exact exists_of_isOk (by decide +kernel)
  have hrefused : (s.engine .restaurant restaurantEngine.execute).prepare
      { revenueAfterSecond with limit := some 51 } =
        .error (.request (.limitOutOfRange 51 50)) := by
    rw [hengine]
    rfl
  obtain ⟨-, hbounds⟩ := row_bounds hs .restaurant restaurantEngine.execute
  obtain ⟨hbounded, hoffset⟩ := (hbounds revenueAfterSecond).1 r' out hprepare
  obtain ⟨-, -, hrange⟩ := (hbounds _).2 51 50 hrefused
  rw [hmax] at hbounded
  exact ⟨s, hs, ⟨hdefault, hmax⟩, ⟨r', out, hprepare, hdefault ▸ hbounded, hoffset⟩, hrefused,
    hrange⟩

end SalesQuery
