import SalesQuery.Catalog.Restaurant
import SalesQuery.Proofs.DateSpelling
import SalesQuery.Proofs.OpenFilters

/-!
# Days in filters

A text counts as a day in a filter on a date field, and in one of the two filters that stand for the
range of days where the request has no range of its own. `ReadsDays` says what becomes of such a text
in a request that is in order otherwise: with blanks around it or not, `YYYY-MM-DD` is the day that
it writes, if that day exists. Whatever spells no existing day is refused, and the fault names the
field and the text. The main statement is that all these places read days in this way
(`QueryRequest.days_read`). Which of the looser spellings of a day are read is left open.
-/

namespace SalesQuery

open Text (Padded)

/-- The answers to texts that are given as a day under a field: the text of an existing day is
answered like the day, and a text that spells no day is refused. -/
structure ReadsDays {α : Type} (field : String) (answer : String → Except RequestFault α)
    (ofDay : Date → Except RequestFault α) : Prop where
  /-- An existing day as `YYYY-MM-DD`, with blanks around it or not, is that day. -/
  day : ∀ (raw core : String) (year month day : Nat) (h : Calendar.IsDay year month day),
    Padded core raw → WritesDay core year month day → answer raw = ofDay ⟨year, month, day, h⟩
  /-- A day that does not exist is refused. -/
  missing : ∀ (raw core : String) (year month day : Nat), ¬ Calendar.IsDay year month day →
    Padded core raw → WritesDay core year month day →
    answer raw = .error (.filterValue field (.notADate raw))
  /-- So is a text that does not spell an existing day. -/
  other : ∀ raw : String,
    (∀ (core : String) (d : Date), Padded core raw → ¬ SpellsDay core d.year d.month d.day) →
    answer raw = .error (.filterValue field (.notADate raw))

/-- Answers to the day that a text is read as are answers to days. -/
theorem ReadsDays.of_readDay {α : Type} {field : String} {answer : String → Except RequestFault α}
    {ofDay : Date → Except RequestFault α}
    (h : ∀ raw, answer raw = (readDay raw).mapError (.filterValue field) >>= ofDay) :
    ReadsDays field answer ofDay := by
  have hnone {raw : String} (hraw : Date.ofFilterText? raw = none) :
      answer raw = .error (.filterValue field (.notADate raw)) := by
    rw [h, readDay, hraw]
    rfl
  refine {
    day := fun raw core year month day hday hpadded hwrites => ?_
    missing := fun raw core year month day hday hpadded hwrites => hnone ?_
    other := fun raw hraw => hnone ?_ }
  · have hread : Date.ofFilterText? raw = some ⟨year, month, day, hday⟩ :=
      (Date.ofFilterText?_writesDay hpadded hwrites).trans (dif_pos hday)
    rw [h, readDay, hread]
    rfl
  · exact (Date.ofFilterText?_writesDay hpadded hwrites).trans (dif_neg hday)
  · rw [Option.eq_none_iff_forall_ne_some]
    intro d hd
    obtain ⟨core, hpadded, hspells⟩ := Date.spellsDay_of_ofFilterText? hd
    exact hraw core d hpadded hspells

/-- The answers to texts in the open place of a filter on a date field: each is read as a day, and the
condition in which it counts gets the day, in a query that is the same otherwise. -/
def OpenFilter.TakesDays (place : OpenFilter) (field : String)
    (answer : String → Except RequestFault ResolvedQuery) : Prop :=
  ∃ (q : ResolvedQuery) (before : List Filter) (slot : OpenCondition) (after : List Filter),
    place.StandsFor slot ∧ ReadsDays field answer fun d =>
      .ok { q with filters := before ++ ⟨field, slot.fill (.date d)⟩ :: after }

/-- One of the bounds of a range of days. -/
inductive DayBound where
  /-- The first day. -/
  | first
  /-- The last day. -/
  | last

/-- The filter that stands for a bound. -/
def DayBound.field : DayBound → String
  | .first => firstDayFilter
  | .last => lastDayFilter

/-- The other bound. -/
def DayBound.opposite : DayBound → DayBound
  | .first => .last
  | .last => .first

/-- The range with a day as one bound, and perhaps another day as the other. -/
def DayBound.range (d : Date) (other : Option Date) : DayBound → DateRange
  | .first => ⟨some d, other⟩
  | .last => ⟨other, some d⟩

/-- The answers to texts in the filter for a bound: each is read as a day, and the query is the same
over the range with this day as the bound, if its bounds are in order. -/
def DayBound.TakesDays (bound : DayBound) (other : Option Date)
    (answer : String → Except RequestFault ResolvedQuery) : Prop :=
  ∃ q : ResolvedQuery, ReadsDays bound.field answer fun d =>
    (fun _ => { q with dateRange := some (bound.range d other) }) <$>
      checkRange (bound.range d other)

namespace QueryRequest

variable {c : Catalog} {maxLimit : Int} {r : QueryRequest} {q : ResolvedQuery}

/-- Brings a request into its canonical form and resolves it. -/
def accept (c : Catalog) (maxLimit : Int) (r : QueryRequest) : Except RequestFault ResolvedQuery := do
  (← r.normalize).resolve c maxLimit

/-- The canonical form of a request over some days. -/
def onDays (dateRange : Option DateRange) (r : QueryRequest) : QueryRequest :=
  { r with
    metrics := distinctTokens r.metrics
    dimensions := distinctTokens r.dimensions
    filters := r.otherFilters
    dateRange }

/-- A request is accepted if its days are read and its canonical form is resolved. -/
theorem accept_eq (c : Catalog) (maxLimit : Int) (r : QueryRequest) :
    r.accept c maxLimit = r.days >>= fun dateRange => (r.onDays dateRange).resolve c maxLimit := by
  rw [accept, normalize_eq]
  cases r.days <;> rfl

/-- A filter other than those for the days leaves the days as they are, and goes into the canonical
form. -/
theorem accept_withFilter {field : String} (input : FilterInput) (hfirst : field ≠ firstDayFilter)
    (hlast : field ≠ lastDayFilter) :
    (r.withFilter field input).accept c maxLimit =
      r.days >>= fun dateRange =>
        ((r.onDays dateRange).withFilter field input).resolve c maxLimit := by
  have hdays : (r.withFilter field input).days = r.days := by
    simp only [days, withFilter, filterRange, Dictionary.get?_insert, if_neg hfirst, if_neg hlast]
  have hfilters : (r.withFilter field input).otherFilters = r.otherFilters.insert field input := by
    refine Dictionary.ext_get? fun k => ?_
    simp only [otherFilters, withFilter, Dictionary.get?_erase, Dictionary.get?_insert]
    grind
  rw [accept_eq, hdays]
  simp only [onDays, hfilters]
  rfl

/-- In a filter on a date field of a request that is resolved as it is, texts are read as days. -/
theorem takesDays_resolve {field : String} {target : FilterField} {place : OpenFilter} {raw : String}
    (htarget : c.filterField? field = some target) (hkind : target.kind = .date)
    (h : (r.withFilter field (place.fill raw)).resolve c maxLimit = .ok q) :
    place.TakesDays field fun raw => (r.withFilter field (place.fill raw)).resolve c maxLimit := by
  obtain ⟨before, slot, after, hslot, hfill⟩ := resolve_fill htarget hkind h
  refine ⟨q, before, slot, after, hslot, .of_readDay fun raw' => ?_⟩
  rw [hfill]
  cases readDay raw' <;> rfl

/-- So are they if the request is brought into its canonical form first, where the filter is not one
for the days. -/
theorem takesDays_accept {field : String} {target : FilterField} {place : OpenFilter} {raw : String}
    (htarget : c.filterField? field = some target) (hkind : target.kind = .date)
    (hfirst : field ≠ firstDayFilter) (hlast : field ≠ lastDayFilter)
    (h : (r.withFilter field (place.fill raw)).accept c maxLimit = .ok q) :
    place.TakesDays field fun raw => (r.withFilter field (place.fill raw)).accept c maxLimit := by
  rw [accept_withFilter _ hfirst hlast] at h
  obtain ⟨dateRange, hdays, hq⟩ := bind_eq_ok.mp h
  have hcanonical (input : FilterInput) : (r.withFilter field input).accept c maxLimit =
      ((r.onDays dateRange).withFilter field input).resolve c maxLimit := by
    rw [accept_withFilter _ hfirst hlast, hdays]
    rfl
  simp only [hcanonical]
  exact takesDays_resolve htarget hkind hq

/-- The day that the filter for a bound gives, if there is one. -/
def boundDay (bound : DayBound) (r : QueryRequest) : Except RequestFault (Option Date) :=
  (r.filters.get? bound.field).mapM (filterDay bound.field)

/-- The day of a text in the filter for a bound. -/
theorem boundDay_withFilter (bound : DayBound) (raw : String) :
    (r.withFilter bound.field (.scalar (.string raw))).boundDay bound =
      some <$> (readDay raw).mapError (.filterValue bound.field) := by
  have hday : filterDay bound.field (.scalar (.string raw)) =
      (readDay raw).mapError (.filterValue bound.field) := by
    rw [filterDay, readDay]
    cases Date.ofFilterText? raw <;> rfl
  rw [boundDay, withFilter, Dictionary.get?_insert, if_pos rfl, ← hday]
  rfl

/-- The filter for a bound leaves the other bound as it is. -/
theorem boundDay_opposite_withFilter (bound : DayBound) (input : FilterInput) :
    (r.withFilter bound.field input).boundDay bound.opposite = r.boundDay bound.opposite := by
  have hne : bound.field ≠ bound.opposite.field := by cases bound <;> decide
  rw [boundDay, withFilter, Dictionary.get?_insert, if_neg hne, boundDay]

/-- With a filter for a bound, the days of a request without a range of its own are those that the
two filters give. -/
theorem days_withFilter (hrange : r.dateRange = none) (bound : DayBound) (input : FilterInput) :
    (r.withFilter bound.field input).days =
      (do
        let start ← (r.withFilter bound.field input).boundDay .first
        let stop ← (r.withFilter bound.field input).boundDay .last
        return some ⟨start, stop⟩) := by
  have hhere : (r.withFilter bound.field input).filters.get? bound.field = some input :=
    (Dictionary.get?_insert _ _ _ _).trans (if_pos rfl)
  have hgiven : ¬ (((r.withFilter bound.field input).filters.get? firstDayFilter).isNone &&
      ((r.withFilter bound.field input).filters.get? lastDayFilter).isNone) = true := by
    cases bound with
    | first =>
      simp only [DayBound.field] at hhere ⊢
      simp [hhere]
    | last =>
      simp only [DayBound.field] at hhere ⊢
      simp [hhere]
  have hown : (r.withFilter bound.field input).dateRange = none := hrange
  rw [days, hown]
  dsimp only
  rw [filterRange, if_neg hgiven]
  rfl

/-- A text in the filter for a bound is the bound that it is read as, if the other filter is in
order. -/
theorem days_withFilter_text (hrange : r.dateRange = none) (bound : DayBound) {other : Option Date}
    (hother : r.boundDay bound.opposite = .ok other) (raw : String) :
    (r.withFilter bound.field (.scalar (.string raw))).days =
      (fun d => some (bound.range d other)) <$>
        (readDay raw).mapError (.filterValue bound.field) := by
  have hhere := boundDay_withFilter (r := r) bound raw
  have hthere := boundDay_opposite_withFilter (r := r) bound (.scalar (.string raw))
  rw [hother] at hthere
  rw [days_withFilter hrange]
  cases bound with
  | first =>
    simp only [DayBound.opposite] at hthere
    rw [hhere, hthere]
    cases readDay raw <;> rfl
  | last =>
    simp only [DayBound.opposite] at hthere
    rw [hhere, hthere]
    cases readDay raw <;> rfl

/-- The filter for a bound is not part of the canonical form. -/
theorem onDays_withFilter (bound : DayBound) (input : FilterInput) (dateRange : Option DateRange) :
    (r.withFilter bound.field input).onDays dateRange = r.onDays dateRange := by
  have hfilters : (r.withFilter bound.field input).otherFilters = r.otherFilters := by
    refine Dictionary.ext_get? fun k => ?_
    simp only [otherFilters, withFilter, Dictionary.get?_erase, Dictionary.get?_insert]
    cases bound <;> grind [DayBound.field]
  rw [onDays, hfilters]
  rfl

/-- In the filter for a bound of a request without a range of its own, texts are read as days. -/
theorem takesDays_bound (hrange : r.dateRange = none) (bound : DayBound) {raw : String}
    (h : (r.withFilter bound.field (.scalar (.string raw))).accept c maxLimit = .ok q) :
    ∃ other, r.boundDay bound.opposite = .ok other ∧ bound.TakesDays other fun raw =>
      (r.withFilter bound.field (.scalar (.string raw))).accept c maxLimit := by
  rw [accept_eq] at h
  obtain ⟨dateRange, hdays, hq⟩ := bind_eq_ok.mp h
  obtain ⟨other, hother⟩ : ∃ other, r.boundDay bound.opposite = .ok other := by
    rw [← boundDay_opposite_withFilter bound (.scalar (.string raw))]
    rw [days_withFilter hrange] at hdays
    obtain ⟨start, hstart, hdays⟩ := bind_eq_ok.mp hdays
    obtain ⟨stop, hstop, -⟩ := bind_eq_ok.mp hdays
    cases bound with
    | first => exact ⟨stop, hstop⟩
    | last => exact ⟨start, hstart⟩
  rw [onDays_withFilter] at hq
  refine ⟨other, hother, q, .of_readDay fun raw' => ?_⟩
  rw [accept_eq, days_withFilter_text hrange bound hother]
  cases readDay raw' with
  | error fault => rfl
  | ok d =>
    -- The canonical forms differ in their days only.
    have hday := (resolve_eq_ok.mp hq).resolve_dateRange (some (bound.range d other))
    show QueryRequest.resolve c maxLimit
      ((r.withFilter bound.field (.scalar (.string raw'))).onDays (some (bound.range d other))) = _
    rw [onDays_withFilter]
    exact hday

/-- Where a text is given as a day, in a request that is accepted with some text there, every text is
read as `ReadsDays` says: in each place of a filter on a date field, whether the request is brought
into its canonical form or resolved as it is, and in a filter for a bound of a request without a range
of its own. -/
theorem days_read (c : Catalog) (maxLimit : Int) (r : QueryRequest) :
    (∀ (field : String) (target : FilterField) (place : OpenFilter),
      c.filterField? field = some target → target.kind = .date →
      ((∃ raw q, (r.withFilter field (place.fill raw)).resolve c maxLimit = .ok q) →
        place.TakesDays field fun raw =>
          (r.withFilter field (place.fill raw)).resolve c maxLimit) ∧
      (field ≠ firstDayFilter → field ≠ lastDayFilter →
        (∃ raw q, (r.withFilter field (place.fill raw)).accept c maxLimit = .ok q) →
        place.TakesDays field fun raw =>
          (r.withFilter field (place.fill raw)).accept c maxLimit)) ∧
      ∀ bound : DayBound, r.dateRange = none →
        (∃ raw q, (r.withFilter bound.field (.scalar (.string raw))).accept c maxLimit = .ok q) →
        ∃ other, r.boundDay bound.opposite = .ok other ∧ bound.TakesDays other fun raw =>
          (r.withFilter bound.field (.scalar (.string raw))).accept c maxLimit := by
  refine ⟨fun field target place htarget hkind => ⟨?_, ?_⟩, ?_⟩
  · rintro ⟨raw, q, h⟩
    exact takesDays_resolve htarget hkind h
  · rintro hfirst hlast ⟨raw, q, h⟩
    exact takesDays_accept htarget hkind hfirst hlast h
  · rintro bound hrange ⟨raw, q, h⟩
    exact takesDays_bound hrange bound h

/-- Asks for the revenue up to the end of a year. -/
def revenueOfYear : QueryRequest where
  metrics := ["faturamento"]
  filters := .ofList [(lastDayFilter, .scalar (.string "2024-12-31"))]

/-- A filter with one day open, and a later day that it has to be before. -/
def fromOpenDay : OpenFilter := .operand "GTE" (.ofList [("lt", .string "2024-03-01")])

/-- A leap day is bound with blanks around it, the same day of another year is refused, and so is a
word; and a leap day is the first day. -/
theorem days_read_leapDay :
    (∃ q, (revenueOfYear.withFilter "data" (fromOpenDay.fill "\u2003 2024-02-29\n")).accept
        Catalog.restaurant 1000 = .ok q ∧
        ⟨"data", .compare .gte (.date ⟨2024, 2, 29, by decide⟩)⟩ ∈ q.filters) ∧
      (revenueOfYear.withFilter "data" (fromOpenDay.fill "2023-02-29")).accept
        Catalog.restaurant 1000 = .error (.filterValue "data" (.notADate "2023-02-29")) ∧
      (revenueOfYear.withFilter "data" (fromOpenDay.fill "yesterday")).accept
        Catalog.restaurant 1000 = .error (.filterValue "data" (.notADate "yesterday")) ∧
      ∃ q, (revenueOfYear.withFilter firstDayFilter (.scalar (.string "2024-02-29"))).accept
        Catalog.restaurant 1000 = .ok q ∧ q.dateRange =
          some ⟨some ⟨2024, 2, 29, by decide⟩, some ⟨2024, 12, 31, by decide⟩⟩ := by
  obtain ⟨hfields, hbounds⟩ := days_read Catalog.restaurant 1000 revenueOfYear
  have hplain (s : String) : Padded s s := ⟨[], [], nofun, nofun, by simp⟩
  have hblanks : Padded "2024-02-29" "\u2003 2024-02-29\n" :=
    ⟨['\u2003', ' '], ['\n'], List.all_eq_true.mp rfl, List.all_eq_true.mp rfl, by decide⟩
  have hleap : WritesDay "2024-02-29" 2024 2 29 :=
    ⟨['2', '0', '2', '4'], ['0', '2'], ['2', '9'], by decide, ⟨by decide, rfl⟩, ⟨by decide, rfl⟩,
      by decide, rfl⟩
  have hcommon : WritesDay "2023-02-29" 2023 2 29 :=
    ⟨['2', '0', '2', '3'], ['0', '2'], ['2', '9'], by decide, ⟨by decide, rfl⟩, ⟨by decide, rfl⟩,
      by decide, rfl⟩
  have hword (core : String) (d : Date) (hcore : Padded core "yesterday") :
      ¬ SpellsDay core d.year d.month d.day := by
    rintro ⟨y, b, m, b', n, hs, -⟩
    obtain ⟨before, after, -, -, htext⟩ := hcore
    have hdash : '-' ∈ "yesterday".toList := by
      rw [htext, hs]
      simp
    exact absurd hdash (by decide)
  obtain ⟨target, htarget, hkind⟩ : ∃ target,
      Catalog.restaurant.filterField? "data" = some target ∧ target.kind = .date :=
    ⟨_, rfl, rfl⟩
  have hsome : ∃ raw q, (revenueOfYear.withFilter "data" (fromOpenDay.fill raw)).accept
      Catalog.restaurant 1000 = .ok q := ⟨"2024-01-01", exists_of_isOk (by decide +kernel)⟩
  have hsome' : ∃ raw q, (revenueOfYear.withFilter firstDayFilter (.scalar (.string raw))).accept
      Catalog.restaurant 1000 = .ok q := ⟨"2024-01-01", exists_of_isOk (by decide +kernel)⟩
  obtain ⟨q, before, slot, after, hslot, hdays⟩ :=
    (hfields "data" target fromOpenDay htarget hkind).2 (by decide) (by decide) hsome
  obtain ⟨other, hother, q', hdays'⟩ := hbounds .first rfl hsome'
  have hlast : other = some ⟨2024, 12, 31, by decide⟩ := by
    have hread : revenueOfYear.boundDay .last = .ok (some ⟨2024, 12, 31, by decide⟩) := by
      decide +kernel
    exact Except.ok.inj (hother.symm.trans hread)
  have hgte : slot = .compare .gte := by
    cases hslot with
    | operandEquals _ hop => exact absurd hop (by decide)
    | @operandCompare _ c _ hc hop =>
      cases c with
      | gte => rfl
      | _ => exact absurd hop (by decide)
  refine ⟨⟨_, hdays.day _ _ 2024 2 29 (by decide) hblanks hleap, ?_⟩,
    hdays.missing _ _ 2023 2 29 (by decide) (hplain _) hcommon, hdays.other _ hword, ?_⟩
  · rw [hgte]
    exact List.mem_append_right before List.mem_cons_self
  · subst hlast
    exact ⟨_, hdays'.day _ _ 2024 2 29 (by decide) (hplain _) hleap, rfl⟩

/-- Asks for the revenue of two days, in texts for the same one. -/
def revenueOfLooseDays : QueryRequest where
  metrics := ["faturamento"]
  filters := .ofList [("data", .list [.string " 2024-01-05 ", .string "+2024-1-5"])]

/-- Neither text is of the form `YYYY-MM-DD`, and both are bound as the day: one has blanks around
it, and one has a sign and lacks digits. -/
theorem loose_days_accepted :
    (∀ year month day, ¬ WritesDay " 2024-01-05 " year month day) ∧
      (∀ year month day, ¬ WritesDay "+2024-1-5" year month day) ∧
      revenueOfLooseDays.accept Catalog.restaurant 1000 = .ok {
        dimensions := []
        metrics := [.catalog "faturamento"]
        filters := [⟨"data", .oneOf
          [.date ⟨2024, 1, 5, by decide⟩, .date ⟨2024, 1, 5, by decide⟩]⟩]
        dateRange := none
        orderBy := []
        limit := none
        offset := none } := by
  refine ⟨fun year month day h => ?_, fun year month day h => ?_, by decide +kernel⟩
  · exact absurd h.length_eq (by decide)
  · exact absurd h.length_eq (by decide)

end QueryRequest

end SalesQuery
