import SalesQuery.Report.Row
import SalesQuery.Request.Fault
import SalesQuery.Sql.Fragment
import SalesQuery.Json.Text

/-!
# Listings

The values that filters can be picked from: stores, channels, products and regions, each with how
often it occurs.
-/

namespace SalesQuery

open Json (Value Decoder)

/-- What is listed. -/
inductive Listing where
  /-- The active stores. -/
  | stores
  /-- The channels. -/
  | channels
  /-- The products, most frequent first. -/
  | products
  /-- The neighbourhoods of deliveries, most frequent first. -/
  | regions
deriving DecidableEq, Repr

/-- How many products are listed by default. -/
def defaultProductLimit : Int := 100

/-- How many products can be listed at most. -/
def maxProductLimit : Int := 500

namespace Listing

/-- The name of a listing. -/
def name : Listing → String
  | .stores => "stores"
  | .channels => "channels"
  | .products => "products"
  | .regions => "regions"

/-- Reads the name of a listing. -/
def decoder : Decoder Listing :=
  Decoder.variant
    [("stores", .stores), ("channels", .channels), ("products", .products), ("regions", .regions)]

/-- The statement that lists stores. -/
def storesSql : String :=
  "SELECT st.id AS id, st.name AS label, COUNT(DISTINCT s.id) AS count\n"
    ++ "FROM stores st\n"
    ++ "LEFT JOIN sales s ON st.id = s.store_id\n"
    ++ "WHERE st.is_active = true\n"
    ++ "GROUP BY st.id, st.name\n"
    ++ "ORDER BY st.name"

/-- The statement that lists channels. -/
def channelsSql : String :=
  "SELECT ch.id AS id, ch.name AS label, COUNT(DISTINCT s.id) AS count\n"
    ++ "FROM channels ch\n"
    ++ "LEFT JOIN sales s ON ch.id = s.channel_id\n"
    ++ "GROUP BY ch.id, ch.name\n"
    ++ "ORDER BY ch.name"

/-- The statement that lists products, up to the limit. -/
def productsSql : String :=
  "SELECT p.id AS id, p.name AS label, COUNT(DISTINCT ps.id) AS count\n"
    ++ "FROM products p\n"
    ++ "LEFT JOIN product_sales ps ON p.id = ps.product_id\n"
    ++ "GROUP BY p.id, p.name\n"
    ++ "ORDER BY count DESC, p.name\n"
    ++ "LIMIT "

/-- The statement that lists regions. -/
def regionsSql : String :=
  "SELECT da.neighborhood AS id, CONCAT(da.neighborhood, ' - ', da.city) AS label, "
      ++ "COUNT(DISTINCT s.id) AS count\n"
    ++ "FROM delivery_addresses da\n"
    ++ "JOIN sales s ON da.sale_id = s.id\n"
    ++ "WHERE da.neighborhood IS NOT NULL\n"
    ++ "GROUP BY da.neighborhood, da.city\n"
    ++ "ORDER BY count DESC, label\n"
    ++ "LIMIT 100"

/-- The statement of a listing. Only products have a limit. -/
def query (l : Listing) (limit : Option Int) : Except RequestFault CompiledQuery :=
  match l with
  | .stores => .ok (.ofFragments [.sql storesSql])
  | .channels => .ok (.ofFragments [.sql channelsSql])
  | .regions => .ok (.ofFragments [.sql regionsSql])
  | .products =>
    let limit := limit.getD defaultProductLimit
    if 1 ≤ limit ∧ limit ≤ maxProductLimit then
      .ok (.ofFragments [.sql productsSql, .bind (.int limit)])
    else .error (.limitOutOfRange limit maxProductLimit)

end Listing

/-- A listed value. -/
structure ListedValue where
  /-- What identifies the value. -/
  id : Value
  /-- What is shown. -/
  label : String
  /-- How often the value occurs. -/
  count : Option Int

namespace ListedValue

/-- The listed value of a row. A label that is no text is shown as JSON, and none as nothing. -/
def ofRow (row : Row) : ListedValue where
  id := (row.get? "id").getD .null
  label := match row.get? "label" with
    | some (.string label) => label
    | some .null | none => ""
    | some other => other.text
  count := (row.get? "count").bind Value.int64?

/-- A listed value as JSON. -/
def toJson (v : ListedValue) : Value :=
  .ofMembers [("id", v.id), ("label", .string v.label), ("count", .ofOption .int v.count)]

/-- Reads a listed value. -/
def decoder : Decoder ListedValue :=
  Decoder.record
    [⟨"id", true, fun levels d => do
        let id ← Decoder.value levels d
        return fun v => { v with id }⟩,
      ⟨"label", true, fun levels d => do
        let label ← Decoder.string levels d
        return fun v => { v with label }⟩,
      ⟨"count", false, fun levels d => do
        let count ← Decoder.optional Decoder.int64 levels d
        return fun v => { v with count }⟩]
    ⟨.null, "", none⟩

end ListedValue

end SalesQuery
