import XdcSubnet.EngineV2.Types

/-!
# XDPoS configuration and the v2 config lookup

`params/config.go`: the XDPoS engine configuration (`XDPoSConfig`), the v2 parameters (`V2`)
with one `V2Config` per switch round, and the lookups `Config`, `UpdateConfig` and
`BuildConfigIndex` that pick the parameters in force at a round.

`CertThreshold` is a `float64` in Go (`0.667` on every network); here it is the exact fraction
`num / den`, and a threshold test `float64(count) < float64(total) * certThreshold` is the exact
comparison `count * den < total * num` (`belowThreshold`).

`AllConfigs` is a Go map; here an association list whose order stands for the map's iteration
order.  A lookup of a key the map lacks dereferences a nil `*V2Config` in Go; here it yields the
default config, which no lookup reaches once `AllConfigs` has the key `0` and `configIndex` lists
its keys.

`XDPoS.New` replaces an `Epoch` of `0` by `900` and panics unless the v2 switch block is an epoch
switch block, so every engine runs with the two facts `XDPoSConfig` carries as fields.
-/

namespace XdcSubnet.EngineV2

/-- `V2Config.CertThreshold` as the fraction `num / den`. -/
structure CertThreshold where
  num : ℕ
  den : ℕ
  den_pos : 0 < den
deriving DecidableEq, Repr

/-- `float64(count) < float64(total) * certThreshold`. -/
def belowThreshold (count total : ℕ) (c : CertThreshold) : Bool :=
  decide (count * c.den < total * c.num)

/-- `params.V2Config`: the parameters in force from `SwitchRound` on. -/
structure V2Config where
  switchRound : UInt64
  minePeriod : ℕ
  timeoutSyncThreshold : ℕ
  timeoutPeriod : ℕ
  certThreshold : CertThreshold
deriving DecidableEq, Repr

instance : Inhabited V2Config :=
  ⟨{ switchRound := 0, minePeriod := 0, timeoutSyncThreshold := 0, timeoutPeriod := 0,
     certThreshold := ⟨0, 1, Nat.one_pos⟩ }⟩

/-- `params.V2`. -/
structure V2 where
  switchBlock : ℕ
  currentConfig : V2Config
  allConfigs : List (UInt64 × V2Config)
  configIndex : List UInt64
  skipV2Validation : Bool
deriving DecidableEq, Repr

/-- `v.AllConfigs[key]`. -/
def V2.getConfig (v : V2) (key : UInt64) : V2Config :=
  (v.allConfigs.lookup key).getD default

/-- The first key of `configIndex` that is at most `round`, else `0`: the loop shared by
`Config` and `UpdateConfig`. -/
def V2.indexFor (v : V2) (round : UInt64) : UInt64 :=
  (v.configIndex.find? (· ≤ round)).getD 0

/-- `V2.Config(round)`: the config of the block at `round`, chosen by `round - 1` ("start from
next block from SwitchRound number"); the subtraction wraps at round `0`. -/
def V2.config (v : V2) (round : UInt64) : V2Config :=
  v.getConfig (v.indexFor (round - 1))

/-- One pass of `BuildConfigIndex`'s inner loop at position `i`: for `j` from `i + 1`, swap the
entries at `i` and `j` when `list[i] < list[j]`. -/
def swapPass (list : List UInt64) (i : ℕ) : List UInt64 :=
  (List.range' (i + 1) (list.length - (i + 1))).foldl
    (fun l j =>
      if l.getD i 0 < l.getD j 0 then (l.set i (l.getD j 0)).set j (l.getD i 0) else l)
    list

/-- `V2.BuildConfigIndex`: the keys of `AllConfigs`, sorted descending by the swapping double
loop. -/
def V2.buildConfigIndex (v : V2) : V2 :=
  let list := v.allConfigs.map Prod.fst
  { v with configIndex := (List.range (list.length - 1)).foldl swapPass list }

/-- `CertThreshold: 0.667`. -/
def certThreshold667 : CertThreshold := ⟨667, 1000, by decide⟩

/-- `params.UnitTestV2Configs`: `MinePeriod` rises from `2` to `3` at round `10`. -/
def unitTestV2Configs : List (UInt64 × V2Config) :=
  [(0, ⟨0, 2, 2, 10, certThreshold667⟩), (10, ⟨10, 3, 2, 4, certThreshold667⟩),
   (899, ⟨899, 2, 4, 5, certThreshold667⟩), (910, ⟨915, 2, 4, 5, certThreshold667⟩)]

/-- The `ChainConfig` fork parameters `VerifyForkHashes` reads. -/
structure ChainConfig where
  eip150Block : Option ℕ
  eip150Hash : Hash
deriving DecidableEq, Repr

/-- `params.XDPoSConfig`, with the two facts `XDPoS.New` establishes. -/
structure XDPoSConfig where
  period : ℕ
  epoch : ℕ
  gap : ℕ
  v2 : V2
  epoch_pos : 0 < epoch
  switchBlock_epoch : v2.switchBlock % epoch = 0

end XdcSubnet.EngineV2
