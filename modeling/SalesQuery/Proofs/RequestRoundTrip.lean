import SalesQuery.Proofs.ReadingBack
import SalesQuery.Proofs.RequestSpelling

/-!
# Requests survive writing and reading

The JSON form of a request is read back as the request. For days, ranges, terms of the order and
requests for comparisons this holds without a condition. A filter is written as the bare value that
it stands for, so it comes back in its shape only if it was taken from that value: if it was read
from JSON (`FilterInput.reads_toJson`). A number of rows comes back only if it fits 64 bits, as
every number that was read does. These conditions are `QueryRequest.Rereadable`; they hold of what
is read and are kept by `QueryRequest.normalize`, so they hold of every request that the service
has to do with (`QueryRequest.Obtained.rereadable`).
-/

namespace SalesQuery

open Json (Value Decoder Document)
open Json.Decoder (Reads reads_string reads_strings reads_int64)

/-! ## Days and terms of the order -/

theorem Date.reads_toJson (d : Date) : Reads Date.decoder d.toJson d := by
  rw [Reads, toJson, Document.ofValue, decoder, Decoder.string]
  simp only [bind, Except.bind, ofText?_text]
  rfl

theorem reads_ofOption_date (d : Option Date) :
    Reads (Decoder.optional Date.decoder) (.ofOption Date.toJson d) d :=
  .optional (fun day _ => day.reads_toJson) fun _ => nofun

theorem DateRange.toJson_eq (r : DateRange) :
    r.toJson = .object [("end_date", .ofOption Date.toJson r.stop),
      ("start_date", .ofOption Date.toJson r.start)] := by
  simp only [toJson, Value.ofMembers_eq, List.foldl_cons, List.foldl_nil, insertEntry,
    String.reduceLT, ↓reduceIte]

theorem DateRange.reads_toJson (r : DateRange) : Reads DateRange.decoder r.toJson r := by
  rw [toJson_eq]
  exact .record ["end_date", "start_date"] (by decide) (by decide) rfl
    (.cons_setting rfl (reads_ofOption_date r.stop)
      (.cons_setting rfl (reads_ofOption_date r.start) .nil)) rfl

theorem OrderInput.toJson_eq (t : OrderInput) :
    t.toJson = .object [("direction", .ofOption .string t.direction),
      ("field", .string t.field)] := by
  simp only [toJson, Value.ofMembers_eq, List.foldl_cons, List.foldl_nil, insertEntry,
    String.reduceLT, ↓reduceIte]

theorem OrderInput.reads_toJson (t : OrderInput) : Reads OrderInput.decoder t.toJson t := by
  have hdirection : Reads (Decoder.optional Decoder.string) (.ofOption .string t.direction)
      t.direction := .optional (fun s _ => reads_string s) fun _ => nofun
  rw [toJson_eq]
  exact .record ["direction", "field"] (by decide) (by decide) rfl
    (.cons_setting rfl hdirection (.cons_setting rfl (reads_string t.field) .nil)) rfl

/-! ## Filters -/

namespace FilterInput

/-- A value that was read is the form of the filter that it is written for. -/
theorem toJson_ofJson {v : Value} (h : Reads Decoder.value v v) : (ofJson v).toJson = v := by
  cases v with
  | object members =>
    -- The members are in the order of their names, as they come out of a reading.
    obtain ⟨inner, -, h⟩ := bind_eq_ok.mp h
    obtain ⟨l, -, h⟩ := bind_eq_ok.mp h
    rw [← Value.object.inj (pure_eq_ok.mp h), ofJson, toJson, Dictionary.ofList_entries]
  | _ => rfl

/-- A filter that was read from JSON is read again as itself. -/
theorem reads_toJson {levels : Option Nat} {d : Document} {f : FilterInput}
    (h : decoder levels d = .ok f) : Reads decoder f.toJson f := by
  obtain ⟨v, hv, rfl⟩ := map_eq_ok.mp h
  have hread := Decoder.reads_of_value hv
  rw [toJson_ofJson hread]
  exact map_eq_ok.mpr ⟨v, hread, rfl⟩

end FilterInput

/-! ## Requests for queries -/

namespace QueryRequest

/-- The filters are read back, and the counts fit 64 bits with a sign. -/
structure Rereadable (r : QueryRequest) : Prop where
  /-- The filters are read back. -/
  filters : ∀ entry ∈ r.filters.entries, Reads FilterInput.decoder entry.2.toJson entry.2
  /-- The limit fits. -/
  limit : ∀ n ∈ r.limit, Text.fitsInt64 n
  /-- The offset fits. -/
  offset : ∀ n ∈ r.offset, Text.fitsInt64 n

/-- The form of a request lists its parts in the order of their names. -/
theorem toJson_eq (r : QueryRequest) :
    r.toJson = .object
      [("date_range", .ofOption DateRange.toJson r.dateRange),
        ("dimensions", .strings r.dimensions),
        ("filters", .object (r.filters.entries.map fun f => (f.1, f.2.toJson))),
        ("limit", .ofOption .int r.limit),
        ("metrics", .strings r.metrics),
        ("offset", .ofOption .int r.offset),
        ("order_by", .ofOption (fun l => .array (l.map OrderInput.toJson)) r.orderBy)] := by
  simp only [toJson, Value.ofMembers_eq, List.foldl_cons, List.foldl_nil, insertEntry,
    String.reduceLT, String.reduceEq, ↓reduceIte]

/-- Such a request is read back. -/
theorem Rereadable.reads_toJson {r : QueryRequest} (h : r.Rereadable) :
    Reads decoder r.toJson r := by
  have hrange : Reads (Decoder.optional DateRange.decoder)
      (.ofOption DateRange.toJson r.dateRange) r.dateRange :=
    .optional (fun range _ => range.reads_toJson) fun _ => nofun
  have hfilters : Reads (Decoder.dictionary FilterInput.decoder)
      (.object (r.filters.entries.map fun f => (f.1, f.2.toJson))) r.filters :=
    .dictionary h.filters
  have hlimit : Reads (Decoder.optional Decoder.int64) (.ofOption .int r.limit) r.limit :=
    .optional (fun n hn => reads_int64 (h.limit n hn)) fun _ => nofun
  have hoffset : Reads (Decoder.optional Decoder.int64) (.ofOption .int r.offset) r.offset :=
    .optional (fun n hn => reads_int64 (h.offset n hn)) fun _ => nofun
  have horder : Reads (Decoder.optional (Decoder.list OrderInput.decoder))
      (.ofOption (fun l => .array (l.map OrderInput.toJson)) r.orderBy) r.orderBy :=
    .optional (fun _ _ => .list fun t _ => t.reads_toJson) fun _ => nofun
  rw [toJson_eq]
  exact .record
    ["date_range", "dimensions", "filters", "limit", "metrics", "offset", "order_by"] (by decide)
    (by decide) rfl
    (.cons_setting rfl hrange <| .cons_setting rfl (reads_strings r.dimensions) <|
      .cons_setting rfl hfilters <| .cons_setting rfl hlimit <|
      .cons_setting rfl (reads_strings r.metrics) <| .cons_setting rfl hoffset <|
      .cons_setting rfl horder .nil) rfl

/-- Every request that is read from JSON is read back. -/
theorem rereadable_of_decoder {levels : Option Nat} {d : Document} {r : QueryRequest}
    (h : decoder levels d = .ok r) : r.Rereadable := by
  refine Decoder.record_preserves ?_ h ⟨List.forall_mem_nil _, by simp, by simp⟩
  simp only [fields, List.forall_mem_cons]
  -- Three parts bring what has to be read back; the others leave the three as they are.
  refine ⟨.setting fun _ _ _ _ _ hr => ⟨hr.filters, hr.limit, hr.offset⟩,
    .setting fun _ _ _ _ _ hr => ⟨hr.filters, hr.limit, hr.offset⟩,
    .setting fun _ _ filters hfilters _ hr => ⟨?_, hr.limit, hr.offset⟩,
    .setting fun _ _ _ _ _ hr => ⟨hr.filters, hr.limit, hr.offset⟩,
    .setting fun _ _ _ _ _ hr => ⟨hr.filters, hr.limit, hr.offset⟩,
    .setting fun _ _ limit hlimit _ hr => ⟨hr.filters, ?_, hr.offset⟩,
    .setting fun _ _ offset hoffset _ hr => ⟨hr.filters, hr.limit, ?_⟩,
    List.forall_mem_nil _⟩
  · intro entry hentry
    obtain ⟨_, _, hread⟩ := Decoder.exists_of_dictionary hfilters entry hentry
    exact FilterInput.reads_toJson hread
  · exact fun n hn => Decoder.fits_of_int64 (Decoder.decode_of_optional hlimit n hn)
  · exact fun n hn => Decoder.fits_of_int64 (Decoder.decode_of_optional hoffset n hn)

/-- Bringing a request into its canonical form keeps it so. -/
theorem Rereadable.normalize {r s : QueryRequest} (hr : r.Rereadable) (h : r.normalize = .ok s) :
    s.Rereadable := by
  rw [normalize_eq] at h
  obtain ⟨dateRange, -, rfl⟩ := map_eq_ok.mp h
  refine ⟨fun entry hentry => hr.filters entry ?_, hr.limit, hr.offset⟩
  exact List.mem_of_mem_filter (List.mem_of_mem_filter hentry)

/-- The request was read from JSON, from a text or from a value at hand, or it is the canonical form
of such a request. -/
inductive Obtained : QueryRequest → Prop
  /-- It was read. -/
  | read {levels : Option Nat} {d : Document} {r : QueryRequest} (h : decoder levels d = .ok r) :
    Obtained r
  /-- It is the canonical form of one. -/
  | normal {r s : QueryRequest} (hr : Obtained r) (h : r.normalize = .ok s) : Obtained s

/-- Such a request is read back. -/
theorem Obtained.rereadable {r : QueryRequest} (h : r.Obtained) : r.Rereadable := by
  induction h with
  | read h => exact rereadable_of_decoder h
  | normal _ h ih => exact ih.normalize h

end QueryRequest

/-! ## Requests for reports -/

theorem ReportFilters.ofMembers_jsonMembers (f : ReportFilters) :
    Value.ofMembers f.jsonMembers = .object [("channels", .strings f.channels),
      ("products", .strings f.products), ("stores", .strings f.stores)] := by
  simp only [jsonMembers, Value.ofMembers_eq, List.foldl_cons, List.foldl_nil, insertEntry,
    String.reduceLT, String.reduceEq, ↓reduceIte]

theorem ReportFilters.reads_jsonMembers (f : ReportFilters) :
    Reads ReportFilters.decoder (.ofMembers f.jsonMembers) f := by
  rw [ofMembers_jsonMembers]
  exact .record ["channels", "products", "stores"] (by decide) (by decide) rfl
    (.cons_setting rfl (reads_strings f.channels) <| .cons_setting rfl (reads_strings f.products) <|
      .cons_setting rfl (reads_strings f.stores) .nil) rfl

namespace ComparisonRequest

theorem toJson_eq (r : ComparisonRequest) :
    r.toJson = .object [("base_end", r.base.stop.toJson), ("base_start", r.base.start.toJson),
      ("channels", .strings r.filters.channels), ("compare_end", r.compare.stop.toJson),
      ("compare_start", r.compare.start.toJson), ("products", .strings r.filters.products),
      ("stores", .strings r.filters.stores)] := by
  simp only [toJson, ReportFilters.jsonMembers, List.cons_append, List.nil_append,
    Value.ofMembers_eq, List.foldl_cons, List.foldl_nil, insertEntry, String.reduceLT,
    String.reduceEq, ↓reduceIte]

/-- A bound is read off the front of the members. -/
theorem members_bound {seen : List String} {bounds : Bounds} {name : String}
    {set : Date → Bounds → Bounds} {day : Date} {rest : List (Option String × Document)}
    (hf : (boundFields.find? fun f => f.name = name) = some (.setting name true Date.decoder set))
    (hnew : seen.contains name = false) :
    members none seen bounds ((some name, .ofValue day.toJson) :: rest) =
      members none (name :: seen) (set day bounds) rest := by
  have hday : (Decoder.Field.setting name true Date.decoder set).read none
      (.ofValue day.toJson) = .ok (set day) := bind_eq_ok.mpr ⟨day, day.reads_toJson, rfl⟩
  rw [members, hf]
  dsimp only
  rw [hnew, hday]
  rfl

/-- Names of a filter are kept. -/
theorem members_names {seen : List String} {bounds bounds' : Bounds} {name : String}
    {names : List String} {rest : List (Option String × Document)} {others : List (String × Value)}
    (hf : (boundFields.find? fun f => f.name = name) = none)
    (hrest : members none seen bounds rest = .ok (bounds', others)) :
    members none seen bounds ((some name, .ofValue (.strings names)) :: rest) =
      .ok (bounds', (name, .strings names) :: others) := by
  have hnames : Reads Decoder.value (.strings names) (.strings names) := by
    refine Decoder.reads_array fun v hv => ?_
    obtain ⟨s, -, rfl⟩ := List.mem_map.mp hv
    rfl
  rw [members, hf]
  exact bind_eq_ok.mpr ⟨_, hnames, bind_eq_ok.mpr ⟨_, hrest, rfl⟩⟩

/-- A request for a comparison is read back. -/
theorem reads_toJson (r : ComparisonRequest) : Reads decoder r.toJson r := by
  -- The bounds are read on the way; the lists of names are left in their order for the filters.
  have hmembers : members none [] {} (Document.ofMembers
      [("base_end", r.base.stop.toJson), ("base_start", r.base.start.toJson),
        ("channels", .strings r.filters.channels), ("compare_end", r.compare.stop.toJson),
        ("compare_start", r.compare.start.toJson), ("products", .strings r.filters.products),
        ("stores", .strings r.filters.stores)]) =
      .ok (⟨some r.base.start, some r.base.stop, some r.compare.start, some r.compare.stop⟩,
        [("channels", .strings r.filters.channels), ("products", .strings r.filters.products),
          ("stores", .strings r.filters.stores)]) :=
    (members_bound rfl rfl).trans <| (members_bound rfl rfl).trans <| members_names rfl <|
      (members_bound rfl rfl).trans <| (members_bound rfl rfl).trans <| members_names rfl <|
      members_names rfl rfl
  have hfilters := r.filters.reads_jsonMembers
  rw [ReportFilters.ofMembers_jsonMembers] at hfilters
  rw [Reads, toJson_eq]
  refine bind_eq_ok.mpr ⟨none, rfl, bind_eq_ok.mpr ⟨_, hmembers, ?_⟩⟩
  exact bind_eq_ok.mpr ⟨r.filters, mapError_eq_ok.mpr hfilters, rfl⟩

end ComparisonRequest

/-! ## All requests -/

/-- A request that was read from JSON, or the canonical form of one, is read back from its JSON form
just as it is; and so is every request for a comparison, whose filters stand beside its bounds. So
two different requests never have the same JSON form. -/
theorem requests_read_back {r s : QueryRequest} (hr : r.Obtained) (hs : s.Obtained)
    (p q : ComparisonRequest) :
    Decoder.ofValue QueryRequest.decoder r.toJson = .ok r ∧
      (r.toJson = s.toJson → r = s) ∧
      Decoder.ofValue ComparisonRequest.decoder p.toJson = .ok p ∧
      (p.toJson = q.toJson → p = q) := by
  have hreads := hr.rereadable.reads_toJson
  refine ⟨hreads.ofValue_eq, fun h => ?_, p.reads_toJson.ofValue_eq, fun h => ?_⟩
  · exact hreads.unique (h ▸ hs.rereadable.reads_toJson)
  · exact p.reads_toJson.unique (h ▸ q.reads_toJson)

/-- A request as it is given, with a filter of each shape and the first and the last day as
filters. -/
def givenShapes : Value := .object
  [("metrics", .strings [" faturamento"]),
    ("filters", .object
      [("produto", .array [.string "Pizza", .null]),
        ("data_venda_gte", .string "-0043-03-15"),
        ("total", .object [("lt", .int 10), ("GTE", .array [.bool true])]),
        ("data_venda_lte", .string "+12025-01-01"),
        ("ativo", .null)]),
    ("order_by", .array [.object [("field", .string "faturamento"), ("direction", .null)]]),
    ("limit", .int 10)]

/-- What it is read as. -/
def readShapes : QueryRequest where
  metrics := [" faturamento"]
  filters := .ofList
    [("produto", .list [.string "Pizza", .null]),
      ("data_venda_gte", .scalar (.string "-0043-03-15")),
      ("total", .operators (.ofList [("lt", .int 10), ("GTE", .array [.bool true])])),
      ("data_venda_lte", .scalar (.string "+12025-01-01")),
      ("ativo", .scalar .null)]
  orderBy := some [⟨"faturamento", none⟩]
  limit := some 10

/-- Its canonical form, with a range of days for the date filters. -/
def normalShapes : QueryRequest where
  metrics := ["faturamento"]
  filters := .ofList
    [("produto", .list [.string "Pizza", .null]),
      ("total", .operators (.ofList [("lt", .int 10), ("GTE", .array [.bool true])])),
      ("ativo", .scalar .null)]
  dateRange := some ⟨some earlyDay, some lateDay⟩
  orderBy := some [⟨"faturamento", none⟩]
  limit := some 10

/-- A comparison over years with a sign. -/
def signedYears : ComparisonRequest :=
  ⟨⟨earlyDay, lateDay⟩, ⟨lateDay, earlyDay⟩, { channels := ["iFood"] }⟩

/-- A request with a filter of each shape is read back, and so is its canonical form. They are
different, and so are their JSON forms. -/
theorem requests_read_back_shapes :
    QueryRequest.decoder none (Document.ofValue givenShapes) = .ok readShapes ∧
      readShapes.normalize = .ok normalShapes ∧
      Decoder.ofValue QueryRequest.decoder readShapes.toJson = .ok readShapes ∧
      Decoder.ofValue QueryRequest.decoder normalShapes.toJson = .ok normalShapes ∧
      readShapes.toJson ≠ normalShapes.toJson ∧
      Decoder.ofValue ComparisonRequest.decoder signedYears.toJson = .ok signedYears := by
  have hread : QueryRequest.decoder none (Document.ofValue givenShapes) = .ok readShapes := rfl
  have hnormal : readShapes.normalize = .ok normalShapes := rfl
  have hr : readShapes.Obtained := .read hread
  have hs : normalShapes.Obtained := .normal hr hnormal
  obtain ⟨hback, hinj, hcompared, -⟩ := requests_read_back hr hs signedYears signedYears
  obtain ⟨hback', -⟩ := requests_read_back hs hr signedYears signedYears
  refine ⟨hread, hnormal, hback, hback', fun h => ?_, hcompared⟩
  have hmetrics : readShapes.metrics = normalShapes.metrics := by rw [hinj h]
  exact absurd hmetrics (by decide)

end SalesQuery
