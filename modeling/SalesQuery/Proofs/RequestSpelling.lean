import Mathlib.Data.List.TakeWhile
import SalesQuery.Proofs.Admissibility
import SalesQuery.Proofs.CacheKeys
import SalesQuery.Proofs.Expiry

/-!
# Spellings of a request

A caller may write one request in several ways: with blanks around tokens, with a token given again,
without a limit instead of with the default one, and with its first and last day as filters instead
of as a range. `QueryRequest.Respelled` says when two requests differ in these only. The canonical
form is taken of three parts that all spellings share: the distinct tokens
(`SameTokens.distinctTokens_eq`), the days (`QueryRequest.days`) and the other filters. So all
spellings have one canonical form, and with it one key, one statement or one fault
(`Engine.canonical_respelled`).
-/

namespace SalesQuery

open Json (Value)

/-! ## Blanks around a text -/

namespace Text

/-- The text is the core with blanks around it. -/
def Padded (core s : String) : Prop :=
  ∃ before after : List Char, (∀ c ∈ before, isBlank c) ∧ (∀ c ∈ after, isBlank c) ∧
    s.toList = before ++ core.toList ++ after

/-- Blanks around a text are trimmed together with its own. -/
theorem Padded.trim_eq {core s : String} (h : Padded core s) : trim s = trim core := by
  obtain ⟨before, after, hbefore, hafter, hs⟩ := h
  have hchars : trimChars s.toList = trimChars core.toList := by
    have hleft : s.toList.dropWhile isBlank = (core.toList ++ after).dropWhile isBlank := by
      rw [hs, List.append_assoc, List.dropWhile_append_of_pos hbefore]
    rw [trimChars, trimChars, hleft, List.dropWhile_append]
    split
    · -- The core is blank, and so is all of the text.
      rename_i hblank
      rw [List.isEmpty_iff.mp hblank, List.dropWhile_eq_nil_iff.mpr hafter]
    · rw [List.reverse_append,
        List.dropWhile_append_of_pos fun c hc => hafter c (List.mem_reverse.mp hc)]
  rw [trim, trim, hchars]

/-- A text is what is left of it with blanks around. -/
theorem padded_trim (s : String) : Padded (trim s) s := by
  have hblank {l : List Char} : ∀ c ∈ l.takeWhile isBlank, isBlank c := fun _ =>
    List.mem_takeWhile_imp
  have hright (l : List Char) :
      l = (l.reverse.dropWhile isBlank).reverse ++ (l.reverse.takeWhile isBlank).reverse := by
    rw [← List.reverse_append, List.takeWhile_append_dropWhile, List.reverse_reverse]
  refine ⟨s.toList.takeWhile isBlank,
    ((s.toList.dropWhile isBlank).reverse.takeWhile isBlank).reverse, hblank,
    fun c hc => hblank c (List.mem_reverse.mp hc), ?_⟩
  rw [trim, String.toList_ofList, trimChars, List.append_assoc, ← hright,
    List.takeWhile_append_dropWhile]

/-- Trimming again changes nothing. -/
theorem trim_trim (s : String) : trim (trim s) = trim s := (padded_trim s).trim_eq.symm

end Text

/-! ## Tokens -/

/-- The lists differ in blanks around tokens, and in tokens given again after they were given
first. -/
inductive SameTokens : List String → List String → Prop
  /-- A list is itself. -/
  | refl (l : List String) : SameTokens l l
  /-- Blanks may stand around a token. -/
  | blanks {core token : String} (l m : List String) (h : Text.Padded core token) :
    SameTokens (l ++ token :: m) (l ++ core :: m)
  /-- A token that was given before may be left out. -/
  | again {token : String} {l : List String} (m : List String) (h : token ∈ l) :
    SameTokens (l ++ token :: m) (l ++ m)
  /-- The lists may be exchanged. -/
  | symm {l m : List String} (h : SameTokens l m) : SameTokens m l
  /-- One difference may follow another. -/
  | trans {l m n : List String} (h : SameTokens l m) (h' : SameTokens m n) : SameTokens l n

/-- Leaving out repetitions again changes nothing. -/
theorem eraseDups_eraseDups : ∀ l : List String, l.eraseDups.eraseDups = l.eraseDups
  | [] => rfl
  | a :: l => by
    have hlength : (l.filter fun b => !b == a).length ≤ l.length := List.length_filter_le ..
    have hother : (l.filter fun b => !b == a).eraseDups.filter (fun b => !b == a) =
        (l.filter fun b => !b == a).eraseDups :=
      List.filter_eq_self.mpr fun b hb => (List.mem_filter.mp (List.mem_eraseDups.mp hb)).2
    rw [List.eraseDups_cons, List.eraseDups_cons, hother, eraseDups_eraseDups]
termination_by l => l.length

/-- The distinct tokens are the trimmed ones, each where it is first. -/
theorem distinctTokens_eq (l : List String) :
    distinctTokens l = (l.map Text.trim).eraseDups := by
  rw [← distinct_eq_eraseDups, distinct, List.foldl_map]
  rfl

/-- Lists of the same tokens have the same distinct tokens. -/
theorem SameTokens.distinctTokens_eq {l m : List String} (h : SameTokens l m) :
    distinctTokens l = distinctTokens m := by
  induction h with
  | refl => rfl
  | blanks l m h =>
    rw [SalesQuery.distinctTokens_eq, SalesQuery.distinctTokens_eq, List.map_append, List.map_cons,
      h.trim_eq, List.map_append, List.map_cons]
  | again m h =>
    rw [SalesQuery.distinctTokens_eq, SalesQuery.distinctTokens_eq, List.map_append, List.map_cons,
      List.eraseDups_append, List.cons_removeAll, if_neg, ← List.eraseDups_append, List.map_append]
    rw [Bool.not_eq_false]
    exact List.elem_eq_true_of_mem (List.mem_map_of_mem h)
  | symm _ ih => exact ih.symm
  | trans _ _ ih ih' => exact ih.trans ih'

/-- Distinct tokens are trimmed and distinct. -/
theorem distinctTokens_distinctTokens (l : List String) :
    distinctTokens (distinctTokens l) = distinctTokens l := by
  have htrimmed : (l.map Text.trim).eraseDups.map Text.trim = (l.map Text.trim).eraseDups := by
    refine (List.map_congr_left fun token htoken => ?_).trans (List.map_id _)
    obtain ⟨given, -, rfl⟩ := List.mem_map.mp (List.mem_eraseDups.mp htoken)
    exact Text.trim_trim given
  rw [distinctTokens_eq, distinctTokens_eq, htrimmed, eraseDups_eraseDups]

/-! ## Days -/

/-- The date filter that names a day. -/
def dayFilter (d : Date) : FilterInput := .scalar (.string d.text)

namespace QueryRequest

/-- The range of days that a request asks for: its own, or that of its date filters. -/
def days (r : QueryRequest) : Except RequestFault (Option DateRange) :=
  match r.dateRange with
  | some range => .ok (some range)
  | none => r.filterRange

/-- The filters other than those for the first and the last day. -/
def otherFilters (r : QueryRequest) : Dictionary FilterInput :=
  (r.filters.erase firstDayFilter).erase lastDayFilter

/-- A request is brought into its canonical form part by part. -/
theorem normalize_eq (r : QueryRequest) :
    r.normalize = (fun dateRange => ({ r with
      metrics := distinctTokens r.metrics
      dimensions := distinctTokens r.dimensions
      filters := r.otherFilters
      dateRange } : QueryRequest)) <$> r.days := by
  rw [normalize, days]
  cases r.dateRange with
  | some range => rfl
  | none =>
    dsimp only
    cases r.filterRange <;> rfl

/-- A request gives the bounds of its days: in a range of its own, whatever its date filters are, or
else in date filters, one for each bound. -/
inductive GivesDays (r : QueryRequest) (range : DateRange) : Prop
  /-- The bounds are given as a range. -/
  | range (h : r.dateRange = some range)
  /-- The bounds, of which there is at least one, are given as filters. -/
  | filters (h : r.dateRange = none) (hsome : range.start.isSome ∨ range.stop.isSome)
    (hfirst : r.filters.get? firstDayFilter = range.start.map dayFilter)
    (hlast : r.filters.get? lastDayFilter = range.stop.map dayFilter)

/-- What a date filter names is read back. -/
theorem mapM_filterDay (field : String) (d : Option Date) :
    (d.map dayFilter).mapM (filterDay field) = .ok d := by
  cases d with
  | none => rfl
  | some d =>
    have hday : filterDay field (dayFilter d) = .ok d := by
      simp only [dayFilter, filterDay, Date.ofFilterText?_text]
    simp [hday, Functor.map, Except.map]

/-- Either way, these are the days that the request asks for. -/
theorem GivesDays.days_eq {r : QueryRequest} {range : DateRange} (h : r.GivesDays range) :
    r.days = .ok (some range) := by
  cases h with
  | range h => rw [QueryRequest.days, h]
  | filters h hsome hfirst hlast =>
    have hany : ¬ ((range.start.map dayFilter).isNone &&
        (range.stop.map dayFilter).isNone) = true := by
      simpa [Option.isSome_iff_ne_none, or_iff_not_imp_left] using hsome
    rw [QueryRequest.days, h]
    dsimp only
    rw [filterRange, hfirst, hlast, if_neg hany, mapM_filterDay, mapM_filterDay]
    rfl

/-- The requests differ at most in how they spell their tokens, their days and the default limit. -/
structure Respelled (defaultLimit : Int) (r s : QueryRequest) : Prop where
  /-- The metric tokens are the same. -/
  metrics : SameTokens r.metrics s.metrics
  /-- The dimension tokens are the same. -/
  dimensions : SameTokens r.dimensions s.dimensions
  /-- The days are given in the same way, or both requests give the same bounds. -/
  days : (r.dateRange = s.dateRange ∧
      r.filters.get? firstDayFilter = s.filters.get? firstDayFilter ∧
      r.filters.get? lastDayFilter = s.filters.get? lastDayFilter) ∨
    ∃ range, r.GivesDays range ∧ s.GivesDays range
  /-- The other filters are the same. -/
  filters : ∀ field, field ≠ firstDayFilter → field ≠ lastDayFilter →
    r.filters.get? field = s.filters.get? field
  /-- The order is the same. -/
  orderBy : r.orderBy = s.orderBy
  /-- The limit is the same, where a missing one counts as the default. -/
  limit : r.limit.getD defaultLimit = s.limit.getD defaultLimit
  /-- The offset is the same. -/
  offset : r.offset = s.offset

namespace Respelled

variable {defaultLimit : Int} {r s : QueryRequest}

/-- Both requests ask for the same days, or have the same fault in their date filters. -/
theorem days_eq (h : Respelled defaultLimit r s) : r.days = s.days := by
  obtain ⟨hrange, hfirst, hlast⟩ | ⟨range, hr, hs⟩ := h.days
  · rw [QueryRequest.days, QueryRequest.days, hrange, filterRange, filterRange, hfirst, hlast]
  · rw [hr.days_eq, hs.days_eq]

/-- Both requests have the same other filters. -/
theorem otherFilters_eq (h : Respelled defaultLimit r s) : r.otherFilters = s.otherFilters := by
  refine Dictionary.ext_get? fun field => ?_
  simp only [otherFilters, Dictionary.get?_erase]
  split
  · rfl
  · rename_i hlast
    split
    · rfl
    · rename_i hfirst
      exact h.filters field (Ne.symm hfirst) (Ne.symm hlast)

end Respelled

/-- Removing the date filters again changes nothing. -/
theorem otherFilters_otherFilters (r : QueryRequest) :
    ({ r with filters := r.otherFilters } : QueryRequest).otherFilters = r.otherFilters := by
  refine Dictionary.ext_get? fun field => ?_
  simp only [otherFilters, Dictionary.get?_erase]
  split
  · rfl
  · split <;> rfl

/-- The date filters are not among the others. -/
theorem get?_otherFilters (r : QueryRequest) :
    r.otherFilters.get? firstDayFilter = none ∧ r.otherFilters.get? lastDayFilter = none := by
  simp [otherFilters, Dictionary.get?_erase]

/-- A canonical form is its own canonical form. -/
theorem normalize_normalize {r s : QueryRequest} (h : r.normalize = .ok s) :
    s.normalize = .ok s := by
  rw [normalize_eq] at h
  obtain ⟨dateRange, -, rfl⟩ := map_eq_ok.mp h
  have hdays : QueryRequest.days { r with
      metrics := distinctTokens r.metrics
      dimensions := distinctTokens r.dimensions
      filters := r.otherFilters
      dateRange } = .ok dateRange := by
    rw [days]
    cases dateRange with
    | some range => rfl
    | none =>
      obtain ⟨hfirst, hlast⟩ := r.get?_otherFilters
      simp only [filterRange, hfirst, hlast]
      rfl
  rw [normalize_eq, hdays]
  simp only [Functor.map, Except.map, distinctTokens_distinctTokens]
  exact congrArg (fun filters => Except.ok ({ r with
    metrics := distinctTokens r.metrics
    dimensions := distinctTokens r.dimensions
    filters
    dateRange } : QueryRequest)) r.otherFilters_otherFilters

end QueryRequest

namespace Engine

variable {σ : Type} {e : Engine σ}

/-- The canonical form under the default limit, part by part. -/
theorem canonical_eq (e : Engine σ) (r : QueryRequest) :
    e.canonical r = (fun dateRange => ({
      metrics := distinctTokens r.metrics
      dimensions := distinctTokens r.dimensions
      filters := r.otherFilters
      dateRange
      orderBy := r.orderBy
      limit := some (r.limit.getD e.defaultLimit)
      offset := r.offset } : QueryRequest)) <$> r.days.mapError .request := by
  rw [canonical, QueryRequest.normalize_eq]
  cases r.days <;> rfl

/-- Spellings of one request have one canonical form or one fault in their date filters. So they
have one key and one statement, or are refused with one fault, and their answers are the same in
every session. A canonical form is a spelling that is kept as it is. -/
theorem canonical_respelled {r s : QueryRequest} (h : r.Respelled e.defaultLimit s) :
    e.canonical r = e.canonical s ∧ e.prepare r = e.prepare s ∧
      e.lookup (.query r) = e.lookup (.query s) ∧
      (∀ (m : Moment) (session : Session σ), e.query m r session = e.query m s session ∧
        e.invalidateQuery m r session = e.invalidateQuery m s session) ∧
      ∀ given normal : QueryRequest, given.normalize = .ok normal →
        normal.normalize = .ok normal := by
  have hcanonical : e.canonical r = e.canonical s := by
    rw [canonical_eq, canonical_eq, h.metrics.distinctTokens_eq, h.dimensions.distinctTokens_eq,
      h.otherFilters_eq, h.days_eq, h.orderBy, h.limit, h.offset]
  have hprepare : e.prepare r = e.prepare s := by rw [prepare, prepare, hcanonical]
  refine ⟨hcanonical, hprepare, ?_, fun m session => ⟨?_, ?_⟩,
    fun _ _ => QueryRequest.normalize_normalize⟩
  · rw [lookup, lookup, hprepare]
  · rw [query, query, hprepare]
  · rw [invalidateQuery, invalidateQuery, hcanonical]

end Engine

/-- A day before year zero. -/
def earlyDay : Date := ⟨-43, 3, 15, by decide⟩

/-- A day after year 9999. -/
def lateDay : Date := ⟨12025, 1, 1, by decide⟩

/-- Asks for the revenue of each channel, with the first and the last day as filters. -/
def revenueByFilters : QueryRequest where
  metrics := [" faturamento", "faturamento", "faturamento\u2003"]
  dimensions := ["channel"]
  filters := .ofList [("data_venda_lte", .scalar (.string "+12025-01-01")),
    ("produto", .list [.string "Pizza"]), ("data_venda_gte", .scalar (.string "-0043-03-15"))]

/-- Asks for the same with a range of days and the default limit, and has a date filter that does
not count. -/
def revenueByBounds : QueryRequest where
  metrics := ["faturamento"]
  dimensions := ["channel ", "channel"]
  filters := .ofList [("produto", .list [.string "Pizza"]), ("data_venda_gte", .list [])]
  dateRange := some ⟨some earlyDay, some lateDay⟩
  limit := some 100

/-- The two requests are spellings of one: blanks and repetitions of tokens, the days as filters or
as a range, and no limit or the default one make no difference to what is looked up. -/
theorem Engine.canonical_respelled_bounds :
    revenueByFilters.Respelled restaurantEngine.defaultLimit revenueByBounds ∧
      ∃ p, restaurantEngine.lookup (.query revenueByFilters) = .ok p ∧
        restaurantEngine.lookup (.query revenueByBounds) = .ok p := by
  have hnone : ∀ c ∈ ([] : List Char), Text.isBlank c := nofun
  have hspace : ∀ c ∈ [' '], Text.isBlank c := List.forall_mem_singleton.mpr rfl
  have hwide : ∀ c ∈ ['\u2003'], Text.isBlank c := List.forall_mem_singleton.mpr rfl
  have hmetrics : SameTokens revenueByFilters.metrics revenueByBounds.metrics :=
    .trans (.blanks [] ["faturamento", "faturamento\u2003"] ⟨[' '], [], hspace, hnone, rfl⟩)
      (.trans (.blanks ["faturamento", "faturamento"] [] ⟨[], ['\u2003'], hnone, hwide, rfl⟩)
        (.trans (.again ["faturamento"] (List.mem_singleton_self _))
          (.again [] (List.mem_singleton_self _))))
  have hdimensions : SameTokens revenueByFilters.dimensions revenueByBounds.dimensions :=
    .symm (.trans (.blanks [] ["channel"] ⟨[], [' '], hnone, hspace, rfl⟩)
      (.again [] (List.mem_singleton_self _)))
  have hrespelled : revenueByFilters.Respelled restaurantEngine.defaultLimit revenueByBounds := {
    metrics := hmetrics
    dimensions := hdimensions
    days := .inr ⟨⟨some earlyDay, some lateDay⟩, .filters rfl (.inl rfl) rfl rfl, .range rfl⟩
    filters := fun field hfirst hlast => by
      have hleft : revenueByFilters.filters.entries = [(firstDayFilter, dayFilter earlyDay),
          (lastDayFilter, dayFilter lateDay), ("produto", .list [.string "Pizza"])] := rfl
      have hright : revenueByBounds.filters.entries =
          [(firstDayFilter, .list []), ("produto", .list [.string "Pizza"])] := rfl
      simp [Dictionary.get?, hleft, hright, Ne.symm hfirst, Ne.symm hlast]
    orderBy := rfl
    limit := rfl
    offset := rfl }
  have hlookup := (canonical_respelled hrespelled).2.2.1
  have hok : (restaurantEngine.lookup (.query revenueByFilters)).isOk := by decide +kernel
  obtain ⟨p, hp⟩ := exists_of_isOk hok
  exact ⟨hrespelled, p, hp, hlookup.symm.trans hp⟩

end SalesQuery
