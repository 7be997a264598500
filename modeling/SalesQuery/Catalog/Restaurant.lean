import SalesQuery.Catalog.Basic

/-!
# The restaurant catalog

The sales of a restaurant chain: revenue, ticket, delivery and preparation times, by channel, store,
product, customer, place and time of day.
-/

namespace SalesQuery.Catalog

/-- The tables around the sales. Only the lines of a sale can be several per sale. -/
def restaurantJoins : List Join :=
  [{ table := "channels", aliasName := "ch", condition := "s.channel_id = ch.id" },
    { table := "stores", aliasName := "st", condition := "s.store_id = st.id" },
    { table := "product_sales", aliasName := "ps", condition := "s.id = ps.sale_id",
      fanOut := some ⟨"s.id", "ps.sale_id"⟩ },
    { table := "products", aliasName := "p", condition := "ps.product_id = p.id",
      dependsOn := some "ps" },
    { table := "categories", aliasName := "cat", condition := "p.category_id = cat.id",
      dependsOn := some "p" },
    { table := "delivery_addresses", aliasName := "da", condition := "s.id = da.sale_id",
      kind := .left },
    { table := "customers", aliasName := "cu", condition := "s.customer_id = cu.id", kind := .left }]

/-- The aggregates over completed sales. -/
def restaurantMetrics : List Metric :=
  [{ name := "faturamento", expression := "SUM(s.total_amount)" },
    { name := "ticket_medio", expression := "AVG(s.total_amount)" },
    { name := "qtd_vendas", expression := "COUNT(DISTINCT s.id)" },
    { name := "qtd_produtos", expression := "SUM(ps.quantity)", join := some "ps" },
    { name := "tempo_medio_entrega", expression := "AVG(s.delivery_seconds / 60.0)" },
    { name := "p50_entrega",
      expression := "PERCENTILE_CONT(0.5) WITHIN GROUP (ORDER BY s.delivery_seconds / 60.0)" },
    { name := "p90_entrega",
      expression := "PERCENTILE_CONT(0.9) WITHIN GROUP (ORDER BY s.delivery_seconds / 60.0)" },
    { name := "p95_entrega",
      expression := "PERCENTILE_CONT(0.95) WITHIN GROUP (ORDER BY s.delivery_seconds / 60.0)" },
    { name := "tempo_medio_preparo", expression := "AVG(s.production_seconds / 60.0)" },
    { name := "clientes_unicos", expression := "COUNT(DISTINCT s.customer_id)" },
    { name := "valor_total_desconto", expression := "SUM(s.total_discount)" },
    { name := "taxa_cancelamento",
      expression := "SUM(CASE WHEN s.sale_status_desc = 'CANCELLED' THEN 1 ELSE 0 END) * 100.0 "
        ++ "/ COUNT(*)" }]

/-- The part of the day in which a sale was made. -/
def dayPart : String :=
  "CASE WHEN EXTRACT(HOUR FROM s.created_at) BETWEEN 6 AND 11 THEN 'Manhã' "
    ++ "WHEN EXTRACT(HOUR FROM s.created_at) BETWEEN 12 AND 17 THEN 'Tarde' "
    ++ "WHEN EXTRACT(HOUR FROM s.created_at) BETWEEN 18 AND 23 THEN 'Noite' "
    ++ "ELSE 'Madrugada' END"

/-- The columns that sales are grouped by. -/
def restaurantDimensions : List Dimension :=
  [{ name := "channel", expression := "ch.name", join := some "ch" },
    { name := "canal_venda", expression := "ch.name", join := some "ch" },
    { name := "store", expression := "st.name", join := some "st" },
    { name := "nome_loja", expression := "st.name", join := some "st" },
    { name := "store_id", expression := "s.store_id" },
    { name := "channel_id", expression := "s.channel_id" },
    { name := "data", expression := saleDate, kind := .date },
    { name := "hora", expression := "EXTRACT(HOUR FROM s.created_at)" },
    { name := "dia_semana", expression := "EXTRACT(DOW FROM s.created_at)" },
    { name := "mes", expression := "TO_CHAR(s.created_at, 'YYYY-MM')" },
    { name := "periodo_dia", expression := dayPart },
    { name := "produto", expression := "p.name", join := some "p" },
    { name := "nome_produto", expression := "p.name", join := some "p" },
    { name := "categoria", expression := "cat.name", join := some "cat" },
    { name := "bairro", expression := "da.neighborhood", join := some "da" },
    { name := "cidade", expression := "da.city", join := some "da" },
    { name := "cliente", expression := "COALESCE(cu.customer_name, s.customer_name)",
      join := some "cu" }]

/-- The columns of a sale that only filters use. -/
def restaurantColumns : List FilterColumn :=
  [{ name := "total_amount", expression := "s.total_amount" },
    { name := "total_discount", expression := "s.total_discount" },
    { name := "customer_id", expression := "s.customer_id" },
    { name := "delivery_seconds", expression := "s.delivery_seconds" },
    { name := "production_seconds", expression := "s.production_seconds" }]

/-- The catalog of the restaurant chain. -/
def restaurant : Catalog :=
  ⟨restaurantMetrics, restaurantDimensions, restaurantColumns, restaurantJoins⟩

end SalesQuery.Catalog
