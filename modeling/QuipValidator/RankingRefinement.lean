import QuipValidator.OrderHistory

/-! The stored ranking is the full ranking cut off. The full ranking is over
all accepted submissions to the order; the pallet only ever sees its stored list
and the new entry. -/
namespace QuipValidator.Mempool
open StableRanking

variable {T : Config}

end QuipValidator.Mempool
