import SalesQuery.Proofs.CanonicalText
import SalesQuery.Proofs.DateText
import SalesQuery.Proofs.Resolution
import SalesQuery.Report.Request
import SalesQuery.Request.Json

/-!
# The JSON form of a request

The JSON form of a request is in canonical order already, so its canonical text is its text, and it
keeps every part of the request: two requests with one JSON form are equal. A filter is written as
the bare value that it was read from, so its form tells a list from a map of operators and from a
single value only if no single value is itself a list or an object (`FilterInput.Plain`). Every
request that can be resolved has such filters.
-/

namespace SalesQuery

/-! ## Dictionaries -/

namespace Dictionary

variable {α : Type}

/-- No key of a dictionary occurs twice. -/
theorem nodup_of_keysAscend {l : List (String × α)} (h : KeysAscend l) : (l.map (·.1)).Nodup := by
  rw [List.nodup_iff_pairwise_ne, List.pairwise_map]
  exact h.imp fun hlt heq => absurd (heq ▸ hlt) (String.lt_irrefl _)

/-- Entering pairs with new keys adds them. -/
theorem ofList_perm {l : List (String × α)} (h : (l.map (·.1)).Nodup) :
    (ofList l).entries.Perm l := by
  have hfold : ∀ (l : List (String × α)) (d : Dictionary α),
      ((d.entries ++ l).map (·.1)).Nodup →
      (l.foldl (fun d entry => d.insert entry.1 entry.2) d).entries.Perm (d.entries ++ l) := by
    intro l
    induction l with
    | nil => simp
    | cons entry l ih =>
      intro d hd
      obtain ⟨key, a⟩ := entry
      have hmiddle : (d.entries ++ (key, a) :: l).Perm ((key, a) :: (d.entries ++ l)) :=
        List.perm_middle
      have hnames := ((hmiddle.map (·.1)).nodup_iff).mp hd
      have hnew : key ∉ d.entries.map (·.1) := fun hmem =>
        (List.nodup_cons.mp hnames).1 (by simpa using .inl (by simpa using hmem))
      have hinsert : (d.insert key a).entries.Perm ((key, a) :: d.entries) :=
        Json.Value.insertEntry_perm a hnew
      refine (ih (d.insert key a) ?_).trans ((hinsert.append_right l).trans hmiddle.symm)
      exact (((hinsert.append_right l).map (·.1)).nodup_iff).mpr hnames
  exact hfold l ∅ h

/-- An entry of a list into which one was placed is that one or was there. -/
theorem mem_of_mem_insertEntry {key : String} {a : α} {l : List (String × α)} {entry : String × α}
    (h : entry ∈ insertEntry key a l) : entry = (key, a) ∨ entry ∈ l := by
  induction l with
  | nil => exact .inl (List.mem_singleton.mp h)
  | cons first l ih =>
    obtain ⟨k, b⟩ := first
    rw [insertEntry] at h
    split at h
    · exact List.mem_cons.mp h
    · split at h
      · exact (List.mem_cons.mp h).imp_right (List.mem_cons_of_mem _)
      · obtain rfl | h := List.mem_cons.mp h
        · exact .inr (List.mem_cons_self ..)
        · exact (ih h).imp_right (List.mem_cons_of_mem _)

/-- Every entry comes from one of the pairs entered. -/
theorem mem_of_mem_ofList {l : List (String × α)} {entry : String × α}
    (h : entry ∈ (ofList l).entries) : entry ∈ l := by
  have hfold : ∀ (l : List (String × α)) (d : Dictionary α),
      entry ∈ (l.foldl (fun d entry => d.insert entry.1 entry.2) d).entries →
      entry ∈ d.entries ∨ entry ∈ l := by
    intro l
    induction l with
    | nil => exact fun d h => .inl h
    | cons first l ih =>
      intro d h
      obtain h | h := ih _ h
      · obtain rfl | h := mem_of_mem_insertEntry h
        · exact .inr (List.mem_cons_self ..)
        · exact .inl h
      · exact .inr (List.mem_cons_of_mem _ h)
  exact (hfold l ∅ h).elim (by rintro ⟨⟩) id

/-- Dictionaries with the same entries are equal. -/
theorem ext_entries {d e : Dictionary α} (h : d.entries = e.entries) : d = e := by
  cases d
  cases e
  cases h
  rfl

end Dictionary

namespace Json.Value

/-! ## Values in canonical order -/

/-- The value is its own canonical form. -/
structure Canonical (v : Value) : Prop where
  /-- A JSON text can hold it. -/
  proper : v.Proper
  /-- The members of every object are in the order of their names. -/
  sorted_eq : v.sorted = v

/-- Values in canonical order with one canonical text are equal. -/
theorem Canonical.eq_of_canonicalText {v w : Value} (hv : v.Canonical) (hw : w.Canonical)
    (h : v.canonicalText = w.canonicalText) : v = w := by
  rw [canonicalText, canonicalText, hv.sorted_eq, hw.sorted_eq] at h
  exact text_inj hv.proper hw.proper h

theorem canonical_null : Canonical .null := ⟨trivial, rfl⟩

theorem canonical_string (s : String) : Canonical (.string s) := ⟨trivial, rfl⟩

theorem canonical_int (n : Int) : Canonical (.int n) := ⟨trivial, rfl⟩

/-- A list of canonical values is canonical. -/
theorem canonical_array {l : List Value} (h : ∀ v ∈ l, v.Canonical) : Canonical (.array l) := by
  have hitems : sortedItems l = l := by
    induction l with
    | nil => rfl
    | cons v l ih =>
      obtain ⟨hv, hl⟩ := List.forall_mem_cons.mp h
      rw [sortedItems, hv.sorted_eq, ih hl]
  refine ⟨properItems_iff.mpr fun v hv => (h v hv).proper, ?_⟩
  rw [sorted, hitems]

/-- An object of canonical values in the order of their names is canonical. -/
theorem canonical_object {l : List (String × Value)} (hl : KeysAscend l)
    (h : ∀ m ∈ l, m.2.Canonical) : Canonical (.object l) := by
  have hnames : (names l).Nodup := Dictionary.nodup_of_keysAscend hl
  have hsame : (l.map fun m => (m.1, m.2.sorted)) = l := by
    rw [List.map_congr_left (g := id) fun m hm => by rw [(h m hm).sorted_eq]; rfl, List.map_id]
  have hmembers : sortedMembers l = l := by
    refine eq_of_perm_of_keysAscend (keysAscend_sortedMembers l) hl ?_
    simpa [hsame] using sortedMembers_perm hnames
  refine ⟨⟨hnames, properMembers_iff.mpr fun m hm => (h m hm).proper⟩, ?_⟩
  rw [sorted, hmembers]

/-- An object made of canonical values is canonical. -/
theorem canonical_ofMembers {l : List (String × Value)} (h : ∀ m ∈ l, m.2.Canonical) :
    Canonical (.ofMembers l) :=
  canonical_object (Dictionary.ofList l).keysAscend fun m hm =>
    h m (Dictionary.mem_of_mem_ofList hm)

theorem canonical_ofOption {α : Type} {encode : α → Value} (h : ∀ a, (encode a).Canonical)
    (o : Option α) : Canonical (.ofOption encode o) := by
  cases o with
  | none => exact canonical_null
  | some a => exact h a

theorem canonical_strings (l : List String) : Canonical (.strings l) := by
  refine canonical_array fun v hv => ?_
  obtain ⟨s, -, rfl⟩ := List.mem_map.mp hv
  exact canonical_string s

/-! ## Forms that keep their parts -/

/-- Two lists of the same members, under the same names in the same order, are equal if no name
occurs twice. -/
theorem eq_of_perm_of_names {l m : List (String × Value)} (h : l.Perm m)
    (hnames : names l = names m) (hnodup : (names l).Nodup) : l = m := by
  induction l generalizing m with
  | nil => exact h.nil_eq
  | cons x l ih =>
    cases m with
    | nil => cases hnames
    | cons y m =>
      obtain ⟨hname, hrest⟩ := List.cons.inj hnames
      obtain ⟨hnew, hl⟩ := List.nodup_cons.mp hnodup
      obtain rfl | hx := List.mem_cons.mp (h.mem_iff.mp (List.mem_cons_self ..))
      · rw [ih h.cons_inv hrest hl]
      · -- Among the others, the name of the first member would occur twice.
        refine absurd ?_ hnew
        show x.1 ∈ names l
        rw [show names l = names m from hrest]
        exact List.mem_map_of_mem hx

/-- Objects made of members under the same names, each once, are equal only if the members are. -/
theorem ofMembers_inj (keys : List String) (hkeys : keys.Nodup) {l m : List (String × Value)}
    (hl : names l = keys) (hm : names m = keys) (h : ofMembers l = ofMembers m) : l = m := by
  have hl' : (names l).Nodup := hl ▸ hkeys
  have hm' : (names m).Nodup := hm ▸ hkeys
  have hperm : (Dictionary.ofList l).entries.Perm m := by
    rw [object.inj h]
    exact Dictionary.ofList_perm hm'
  exact eq_of_perm_of_names ((Dictionary.ofList_perm hl').symm.trans hperm) (hl.trans hm.symm) hl'

/-- Lists with one image are equal if the map tells their elements apart. -/
theorem map_inj_of_mem {α β : Type} {f : α → β} {l m : List α}
    (hinj : ∀ a ∈ l, ∀ b ∈ m, f a = f b → a = b) (h : l.map f = m.map f) : l = m := by
  induction l generalizing m with
  | nil => exact (List.map_eq_nil_iff.mp h.symm).symm
  | cons a l ih =>
    cases m with
    | nil => cases h
    | cons b m =>
      obtain ⟨hab, hrest⟩ := List.cons.inj h
      rw [hinj a (List.mem_cons_self ..) b (List.mem_cons_self ..) hab,
        ih (fun x hx y hy =>
          hinj x (List.mem_cons_of_mem _ hx) y (List.mem_cons_of_mem _ hy)) hrest]

theorem ofOption_inj {α : Type} {encode : α → Value} (hinj : ∀ a b, encode a = encode b → a = b)
    (hnull : ∀ a, encode a ≠ .null) {o p : Option α} (h : ofOption encode o = ofOption encode p) :
    o = p := by
  cases o with
  | none =>
    cases p with
    | none => rfl
    | some b => exact absurd h.symm (hnull b)
  | some a =>
    cases p with
    | none => exact absurd h (hnull a)
    | some b => rw [hinj a b h]

theorem strings_inj {l m : List String} (h : strings l = strings m) : l = m :=
  (List.map_inj_right fun _ _ => string.inj).mp (array.inj h)

end Json.Value

open Json (Value)
open Json.Value (Canonical ofMembers_inj ofOption_inj strings_inj canonical_ofMembers
  canonical_ofOption canonical_string canonical_strings canonical_int canonical_array
  canonical_object map_inj_of_mem)

/-! ## Filters -/

/-- The value is neither a list nor an object. -/
def Json.Value.IsScalar : Value → Prop
  | .array _ | .object _ => False
  | _ => True

theorem Json.Value.IsScalar.canonical {v : Value} (h : v.IsScalar) (hv : v.Proper) :
    v.Canonical := by
  cases v with
  | array items => exact h.elim
  | object members => exact h.elim
  | _ => exact ⟨hv, rfl⟩

/-- What a condition binds as a scalar is one. -/
theorem isScalar_of_resolveScalar {kind : ValueKind} {v : Value} {s : Scalar}
    (h : resolveScalar kind v = .ok s) : v.IsScalar := by
  cases v with
  | array items => cases kind <;> cases h
  | object members => cases kind <;> cases h
  | _ => trivial

/-- What a condition binds as a list is one of scalars. -/
theorem isScalar_of_resolveList {kind : ValueKind} {values : List Value} {l : List Scalar}
    (h : resolveList kind values = .ok l) : ∀ v ∈ values, v.IsScalar := by
  rw [resolveList] at h
  split at h
  · cases h
  · intro v hv
    obtain ⟨s, hs⟩ := exists_of_mem_of_mapM h hv
    exact isScalar_of_resolveScalar hs

/-- What an operator is given is a scalar or a list of scalars. -/
theorem isScalar_or_of_resolveOperator {kind : ValueKind} {op : String} {v : Value}
    {condition : FilterCondition} (h : resolveOperator kind op v = .ok condition) :
    v.IsScalar ∨ ∃ items, v = .array items ∧ ∀ v ∈ items, v.IsScalar := by
  have hscalar {f : Scalar → FilterCondition}
      (h : f <$> resolveScalar kind v = .ok condition) : v.IsScalar := by
    obtain ⟨s, hs, -⟩ := map_eq_ok.mp h
    exact isScalar_of_resolveScalar hs
  unfold resolveOperator at h
  split at h
  · exact .inl (hscalar h)
  · split at h
    · rename_i values
      obtain ⟨l, hl, -⟩ := map_eq_ok.mp h
      exact .inr ⟨values, rfl, isScalar_of_resolveList hl⟩
    · cases h
  · exact .inl (hscalar h)
  · exact .inl (hscalar h)
  · exact .inl (hscalar h)
  · exact .inl (hscalar h)
  · cases h

namespace FilterInput

/-- The values of the filter are scalars, or lists of scalars under the name of an operator. -/
def Plain : FilterInput → Prop
  | .list values => ∀ v ∈ values, v.IsScalar
  | .operators values => ∀ entry ∈ values.entries, entry.2.IsScalar ∨
      ∃ items, entry.2 = .array items ∧ ∀ v ∈ items, v.IsScalar
  | .scalar v => v.IsScalar

/-- A filter that can be resolved has values of this kind only. -/
theorem plain_of_resolveFilter {c : Catalog} {field : String} {input : FilterInput}
    {filters : List Filter} (h : resolveFilter c field input = .ok filters) : input.Plain := by
  obtain ⟨target, conditions, -, hconditions, -⟩ := resolveFilter_eq_ok.mp h
  cases input with
  | list values =>
    obtain ⟨l, hl, -⟩ := bind_eq_ok.mp hconditions
    exact isScalar_of_resolveList hl
  | scalar v =>
    obtain ⟨s, hs, -⟩ := bind_eq_ok.mp hconditions
    exact isScalar_of_resolveScalar hs
  | operators values =>
    rw [resolveConditions] at hconditions
    split at hconditions
    · cases hconditions
    · intro entry hentry
      obtain ⟨condition, hcondition⟩ := exists_of_mem_of_mapM hconditions hentry
      exact isScalar_or_of_resolveOperator hcondition

/-- Filters of this kind with one JSON form are equal. -/
theorem Plain.toJson_inj {f g : FilterInput} (hf : f.Plain) (hg : g.Plain)
    (h : f.toJson = g.toJson) : f = g := by
  cases f with
  | list values =>
    cases g with
    | list values' => rw [Value.array.inj h]
    | operators values' => cases h
    | scalar v =>
      obtain rfl : Value.array values = v := h
      exact hg.elim
  | operators values =>
    cases g with
    | list values' => cases h
    | operators values' => rw [Dictionary.ext_entries (Value.object.inj h)]
    | scalar v =>
      obtain rfl : Value.object values.entries = v := h
      exact hg.elim
  | scalar v =>
    cases g with
    | list values' =>
      obtain rfl : v = Value.array values' := h
      exact hf.elim
    | operators values' =>
      obtain rfl : v = Value.object values'.entries := h
      exact hf.elim
    | scalar w => rw [show v = w from h]

/-- A filter of this kind is in canonical order. -/
theorem Plain.canonical {f : FilterInput} (hf : f.Plain) (hp : f.toJson.Proper) :
    f.toJson.Canonical := by
  have hlist {l : List Value} (hl : ∀ v ∈ l, v.IsScalar) (hp : (Value.array l).Proper) :
      (Value.array l).Canonical :=
    canonical_array fun v hv => (hl v hv).canonical (Value.properItems_iff.mp hp v hv)
  cases f with
  | list values => exact hlist hf hp
  | operators values =>
    refine canonical_object values.keysAscend fun m hm => ?_
    have hm' := Value.properMembers_iff.mp hp.2 m hm
    obtain hscalar | ⟨items, heq, hitems⟩ := hf m hm
    · exact hscalar.canonical hm'
    · rw [heq] at hm' ⊢
      exact hlist hitems hm'
  | scalar v => exact Value.IsScalar.canonical hf hp

end FilterInput

/-! ## Days and ranges -/

theorem Date.toJson_inj {d e : Date} (h : d.toJson = e.toJson) : d = e :=
  Date.text_inj (Value.string.inj h)

theorem ofOption_date_inj {d e : Option Date}
    (h : Value.ofOption Date.toJson d = .ofOption Date.toJson e) : d = e :=
  ofOption_inj (fun _ _ => Date.toJson_inj) (fun _ => nofun) h

theorem ofOption_int_inj {m n : Option Int} (h : Value.ofOption .int m = .ofOption .int n) :
    m = n :=
  ofOption_inj (fun _ _ h => Json.Number.int.inj (Value.number.inj h)) (fun _ => nofun) h

theorem DateRange.toJson_inj {r s : DateRange} (h : r.toJson = s.toJson) : r = s := by
  have hparts := ofMembers_inj ["start_date", "end_date"] (by decide) rfl rfl h
  simp only [List.cons.injEq, Prod.mk.injEq, true_and, and_true] at hparts
  calc r = ⟨r.start, r.stop⟩ := rfl
    _ = ⟨s.start, s.stop⟩ := by rw [ofOption_date_inj hparts.1, ofOption_date_inj hparts.2]
    _ = s := rfl

theorem DateRange.canonical_toJson (r : DateRange) : r.toJson.Canonical := by
  have hday : ∀ d : Date, d.toJson.Canonical := fun d => canonical_string d.text
  refine canonical_ofMembers ?_
  simp only [List.forall_mem_cons]
  exact ⟨canonical_ofOption hday r.start, canonical_ofOption hday r.stop, nofun⟩

/-! ## Requests for queries -/

theorem OrderInput.toJson_inj {t u : OrderInput} (h : t.toJson = u.toJson) : t = u := by
  have hparts := ofMembers_inj ["field", "direction"] (by decide) rfl rfl h
  simp only [List.cons.injEq, Prod.mk.injEq, true_and, and_true] at hparts
  have hdirection : t.direction = u.direction :=
    ofOption_inj (fun _ _ => Value.string.inj) (fun _ => nofun) hparts.2
  calc t = ⟨t.field, t.direction⟩ := rfl
    _ = ⟨u.field, u.direction⟩ := by rw [Value.string.inj hparts.1, hdirection]
    _ = u := rfl

theorem OrderInput.canonical_toJson (t : OrderInput) : t.toJson.Canonical := by
  refine canonical_ofMembers ?_
  simp only [List.forall_mem_cons]
  exact ⟨canonical_string _, canonical_ofOption canonical_string _, nofun⟩

namespace QueryRequest

/-- Every filter has scalars and lists of scalars only, which a JSON text can hold. -/
structure Plain (r : QueryRequest) : Prop where
  /-- The filters have scalars and lists of scalars only. -/
  plain : ∀ f ∈ r.filters.entries, f.2.Plain
  /-- A JSON text can hold them. -/
  proper : ∀ f ∈ r.filters.entries, f.2.toJson.Proper

/-- Two such requests with one JSON form are equal. -/
theorem Plain.toJson_inj {r s : QueryRequest} (hr : r.Plain) (hs : s.Plain)
    (h : r.toJson = s.toJson) : r = s := by
  have hparts := ofMembers_inj
    ["metrics", "dimensions", "filters", "date_range", "order_by", "limit", "offset"] (by decide)
    rfl rfl h
  simp only [List.cons.injEq, Prod.mk.injEq, true_and, and_true] at hparts
  obtain ⟨hmetrics, hdimensions, hfilters, hrange, horder, hlimit, hoffset⟩ := hparts
  have hentries : r.filters.entries = s.filters.entries := by
    refine map_inj_of_mem (fun f hf g hg heq => ?_) (Value.object.inj hfilters)
    obtain ⟨hfield, hform⟩ := Prod.mk.inj heq
    exact Prod.ext hfield ((hr.plain f hf).toJson_inj (hs.plain g hg) hform)
  have hterms (l m : List OrderInput)
      (h : Value.array (l.map OrderInput.toJson) = .array (m.map OrderInput.toJson)) : l = m :=
    (List.map_inj_right fun _ _ => OrderInput.toJson_inj).mp (Value.array.inj h)
  cases r
  cases s
  congr
  · exact strings_inj hmetrics
  · exact strings_inj hdimensions
  · exact Dictionary.ext_entries hentries
  · exact ofOption_inj (fun _ _ => DateRange.toJson_inj) (fun _ => nofun) hrange
  · exact ofOption_inj hterms (fun _ => nofun) horder
  · exact ofOption_int_inj hlimit
  · exact ofOption_int_inj hoffset

/-- The JSON form of such a request is in canonical order. -/
theorem Plain.canonical_toJson {r : QueryRequest} (h : r.Plain) : r.toJson.Canonical := by
  refine canonical_ofMembers ?_
  simp only [List.forall_mem_cons]
  refine ⟨canonical_strings _, canonical_strings _, ?_,
    canonical_ofOption DateRange.canonical_toJson _, canonical_ofOption ?_ _,
    canonical_ofOption canonical_int _, canonical_ofOption canonical_int _, nofun⟩
  · refine canonical_object (List.pairwise_map.mpr r.filters.keysAscend) fun m hm => ?_
    obtain ⟨f, hf, rfl⟩ := List.mem_map.mp hm
    exact (h.plain f hf).canonical (h.proper f hf)
  · intro l
    refine canonical_array fun v hv => ?_
    obtain ⟨t, -, rfl⟩ := List.mem_map.mp hv
    exact t.canonical_toJson

end QueryRequest

/-! ## Requests for reports -/

theorem ReportFilters.jsonMembers_inj {f g : ReportFilters} (h : f.jsonMembers = g.jsonMembers) :
    f = g := by
  simp only [jsonMembers, List.cons.injEq, Prod.mk.injEq, true_and, and_true] at h
  obtain ⟨hchannels, hstores, hproducts⟩ := h
  calc f = ⟨f.channels, f.stores, f.products⟩ := rfl
    _ = ⟨g.channels, g.stores, g.products⟩ := by
      rw [strings_inj hchannels, strings_inj hstores, strings_inj hproducts]
    _ = g := rfl

theorem ReportFilters.canonical_jsonMembers (f : ReportFilters) :
    ∀ m ∈ f.jsonMembers, m.2.Canonical := by
  simp only [jsonMembers, List.forall_mem_cons]
  exact ⟨canonical_strings _, canonical_strings _, canonical_strings _, nofun⟩

theorem DashboardRequest.toJson_inj {r s : DashboardRequest} (h : r.toJson = s.toJson) : r = s := by
  have hparts := ofMembers_inj ["date_range", "filters"] (by decide) rfl rfl h
  simp only [List.cons.injEq, Prod.mk.injEq, true_and, and_true] at hparts
  obtain ⟨hrange, hfilters⟩ := hparts
  have hmembers := ofMembers_inj ["channels", "stores", "products"] (by decide) rfl rfl hfilters
  calc r = ⟨r.dateRange, r.filters⟩ := rfl
    _ = ⟨s.dateRange, s.filters⟩ := by
      rw [DateRange.toJson_inj hrange, ReportFilters.jsonMembers_inj hmembers]
    _ = s := rfl

theorem DashboardRequest.canonical_toJson (r : DashboardRequest) : r.toJson.Canonical := by
  refine canonical_ofMembers ?_
  simp only [List.forall_mem_cons]
  exact ⟨r.dateRange.canonical_toJson, canonical_ofMembers r.filters.canonical_jsonMembers, nofun⟩

theorem ComparisonRequest.toJson_inj {r s : ComparisonRequest} (h : r.toJson = s.toJson) :
    r = s := by
  have hparts := ofMembers_inj ["base_start", "base_end", "compare_start", "compare_end",
    "channels", "stores", "products"] (by decide) rfl rfl h
  obtain ⟨hdays, hfilters⟩ := List.append_inj hparts rfl
  simp only [List.cons.injEq, Prod.mk.injEq, true_and, and_true] at hdays
  obtain ⟨hbaseStart, hbaseStop, hcompareStart, hcompareStop⟩ := hdays
  calc r = ⟨⟨r.base.start, r.base.stop⟩, ⟨r.compare.start, r.compare.stop⟩, r.filters⟩ := rfl
    _ = ⟨⟨s.base.start, s.base.stop⟩, ⟨s.compare.start, s.compare.stop⟩, s.filters⟩ := by
      rw [Date.toJson_inj hbaseStart, Date.toJson_inj hbaseStop, Date.toJson_inj hcompareStart,
        Date.toJson_inj hcompareStop, ReportFilters.jsonMembers_inj hfilters]
    _ = s := rfl

theorem ComparisonRequest.canonical_toJson (r : ComparisonRequest) : r.toJson.Canonical := by
  have hday (d : Date) : d.toJson.Canonical := canonical_string d.text
  refine canonical_ofMembers (List.forall_mem_append.mpr ⟨?_, r.filters.canonical_jsonMembers⟩)
  simp only [List.forall_mem_cons]
  exact ⟨hday _, hday _, hday _, hday _, nofun⟩

end SalesQuery
