import SalesQuery.Report.Request
import SalesQuery.Sql.Fragment
import SalesQuery.Catalog.Basic

/-!
# The aggregates of reports

Dashboards and comparisons evaluate one row of aggregates over completed sales. Restrictions to
channels, stores and products are memberships in subqueries, so a restriction to products does not
multiply sales.
-/

namespace SalesQuery

/-- The columns of the row. -/
def aggregateSelect : String :=
  "SELECT\n    "
    ++ "SUM(s.total_amount) AS faturamento_total,\n    "
    ++ "AVG(s.total_amount) AS ticket_medio,\n    "
    ++ "COUNT(DISTINCT s.id) AS total_vendas,\n    "
    ++ "COUNT(DISTINCT s.customer_id) FILTER (WHERE s.customer_id IS NOT NULL) AS clientes_unicos,\n    "
    ++ "AVG(s.delivery_seconds / 60.0) FILTER (WHERE s.delivery_seconds IS NOT NULL) "
      ++ "AS tempo_medio_entrega_min,\n    "
    ++ "AVG(s.production_seconds / 60.0) FILTER (WHERE s.production_seconds IS NOT NULL) "
      ++ "AS tempo_medio_preparo_min"

/-- A column of the sales and the subquery, open at its end, that it has to be a member of. -/
structure Membership where
  /-- The column. -/
  column : String
  /-- The subquery up to the name that is restricted. -/
  subquery : String

/-- The sales of channels by name. -/
def channelMembership : Membership :=
  ⟨"s.channel_id", "SELECT ch.id FROM channels ch WHERE ch.name"⟩

/-- The sales of stores by name. -/
def storeMembership : Membership := ⟨"s.store_id", "SELECT st.id FROM stores st WHERE st.name"⟩

/-- The sales that have a line with one of some products, by name. -/
def productMembership : Membership :=
  ⟨"s.id", "SELECT ps.sale_id FROM product_sales ps JOIN products p ON ps.product_id = p.id "
    ++ "WHERE p.name"⟩

/-- The restriction to some names; none if the list is empty. -/
def Membership.fragments (m : Membership) (names : List String) : List Fragment :=
  if names.isEmpty then []
  else
    .sql ("\n  AND " ++ m.column ++ " IN (" ++ m.subquery ++ " IN (")
      :: (Fragment.separated ", " (names.map fun n => [.bind (.text n)]) ++ [.sql "))"])

/-- The restriction by a bound on the day of a sale. -/
def boundFragments (op : String) : Option Date → List Fragment
  | none => []
  | some d => [.sql ("\n  AND " ++ saleDate ++ " " ++ op ++ " "), .bind (.date d)]

/-- The statement of a report. -/
def aggregateQuery (range : DateRange) (filters : ReportFilters) : CompiledQuery :=
  .ofFragments
    (.sql (aggregateSelect ++ "\nFROM sales s\nWHERE " ++ basePredicate)
      :: (boundFragments ">=" range.start ++ boundFragments "<=" range.stop
        ++ channelMembership.fragments filters.channels
        ++ storeMembership.fragments filters.stores
        ++ productMembership.fragments filters.products))

end SalesQuery
