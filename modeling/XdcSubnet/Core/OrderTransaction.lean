import XdcSubnet.Lib.SliceHeap

/-!
# Pending order transactions by nonce (`core/types/order_transaction.go`)

`OrderTransactionByNonce` hands the pending order transactions of many accounts to the matching
loop one at a time.  `heads` is a heap of one transaction per account, ordered by account nonce
(`OrderTxByNonce`), and `txs` keeps each account's transactions after its head.  `Peek` reads
the root; `Shift` replaces it with the next transaction of the same account, and `Pop` drops it
and, with it, the rest of that account.

Model choices: a transaction is a type `τ` read through its account nonce and its sender
(`OrderSender`, whose error the callers ignore, so that it reads as the zero address).  The map
is a function from addresses, a missing key reading as the empty list.  Go's iteration order
over the map is the argument `keys` of `newOrderTransactionByNonce`.  `Shift` and `Pop` on an
empty heap panic in Go; the loop calls them only after `Peek` found a head.

`Tracks pending t taken` is what a run of `Shift` and `Pop` keeps, for a pending map whose lists
hold the transactions of their key: one head per account, and for every account a split of its
pending list into what is behind (where the heads taken so far sit, in order) and what is still
to come (its head and the rest of its list).
-/

namespace XdcSubnet.Core

variable {τ : Type} (accountNonce : τ → ℕ) (orderSender : τ → ℕ)

/-- `OrderTxByNonce.Less`: by account nonce. -/
def orderTxLess (a b : τ) : Bool :=
  decide (accountNonce a < accountNonce b)

/-- `OrderTransactionByNonce`: each account's transactions after its head, and the heap of
heads. -/
structure OrderTransactionByNonce (τ : Type) where
  txs : ℕ → List τ
  heads : List τ

/-- A pass of the loop of `NewOrderTransactionByNonce` at the key `fromAddr`: delete an empty
list; else take its first transaction as a head, keep the rest under the transaction's sender,
and delete the key when that is another address. -/
def visitPending (t : (ℕ → List τ) × List τ) (fromAddr : ℕ) : (ℕ → List τ) × List τ :=
  match t.1 fromAddr with
  | [] => (Function.update t.1 fromAddr [], t.2)
  | tx :: rest =>
    let acc := orderSender tx
    let txs := Function.update t.1 acc rest
    (if fromAddr ≠ acc then Function.update txs fromAddr [] else txs, t.2 ++ [tx])

section Heap

variable [Inhabited τ]

/-- `NewOrderTransactionByNonce`, ranging over the map's keys in the order `keys`. -/
def newOrderTransactionByNonce (keys : List ℕ) (txs : ℕ → List τ) : OrderTransactionByNonce τ :=
  let t := keys.foldl (visitPending orderSender) (txs, [])
  { txs := t.1, heads := SliceHeap.init (orderTxLess accountNonce) default t.2 }

namespace OrderTransactionByNonce

/-- `Peek`. -/
def peek (t : OrderTransactionByNonce τ) : Option τ :=
  t.heads.head?

/-- `Shift`: replace the root with the next transaction of its sender, or pop it when there is
none. -/
def shift (t : OrderTransactionByNonce τ) : OrderTransactionByNonce τ :=
  match t.heads with
  | [] => t
  | head :: _ =>
    let acc := orderSender head
    match t.txs acc with
    | tx :: rest =>
      { txs := Function.update t.txs acc rest
        heads := SliceHeap.fix (orderTxLess accountNonce) default (t.heads.set 0 tx) 0 }
    | [] => { t with heads := (SliceHeap.pop (orderTxLess accountNonce) default t.heads).2 }

/-- `Pop`: drop the root, and with it the rest of its sender's transactions. -/
def pop (t : OrderTransactionByNonce τ) : OrderTransactionByNonce τ :=
  { t with heads := (SliceHeap.pop (orderTxLess accountNonce) default t.heads).2 }

end OrderTransactionByNonce

end Heap

/-! ### What a run of `Shift` and `Pop` keeps -/

/-- The split of account `a`'s pending list: `pre` holds its heads taken so far, in order, and
`suf` is what is still to come: its head, when it has one, and the rest of its list. -/
def Queued (pending : ℕ → List τ) (t : OrderTransactionByNonce τ) (taken : List τ) (a : ℕ) :
    Prop :=
  ∃ pre suf, pre ++ suf = pending a ∧ (taken.filter fun tx => orderSender tx = a).Sublist pre ∧
    ∀ head ∈ t.heads, orderSender head = a → suf = head :: t.txs a

/-- The invariant of a run of `Shift` and `Pop`: one head per account, and every account's
pending list split as `Queued` says. -/
structure Tracks (pending : ℕ → List τ) (t : OrderTransactionByNonce τ) (taken : List τ) :
    Prop where
  nodup : (t.heads.map orderSender).Nodup
  queued : ∀ a, Queued orderSender pending t taken a

/-- Every pending list holds the transactions of its key, as the pool groups them. -/
def Keyed (pending : ℕ → List τ) : Prop :=
  ∀ a, ∀ tx ∈ pending a, orderSender tx = a

/-- What the loop of `NewOrderTransactionByNonce` keeps over the keys it visited: one head per
visited key, each the first of its key's pending list with the rest kept under the key, and the
keys not visited as they were. -/
structure Visited (pending : ℕ → List τ) (visited : List ℕ) (st : (ℕ → List τ) × List τ) :
    Prop where
  nodup : (st.2.map orderSender).Nodup
  senders : ∀ h ∈ st.2, orderSender h ∈ visited
  unvisited : ∀ a, a ∉ visited → st.1 a = pending a
  heads : ∀ h ∈ st.2, pending (orderSender h) = h :: st.1 (orderSender h)

variable {accountNonce orderSender} {pending : ℕ → List τ}

theorem nodup_map_of_perm {l l' : List τ} (hp : l'.Perm l) (hnd : (l.map orderSender).Nodup) :
    (l'.map orderSender).Nodup :=
  (hp.map orderSender).nodup_iff.2 hnd

section Taking

variable {t : OrderTransactionByNonce τ} {taken : List τ} {head : τ} {rest : List τ}

/-- The split of another account is the same after the root is taken, when the new heads are the
others' and perhaps one more of the root's sender, and the root's sender alone changes list. -/
theorem Queued.other (h : Queued orderSender pending t taken b) {t' : OrderTransactionByNonce τ}
    (hheads : t.heads = head :: rest) (hb : orderSender head ≠ b)
    (hnew : ∀ x ∈ t'.heads, orderSender x = b → x ∈ rest)
    (htxs : t'.txs b = t.txs b) : Queued orderSender pending t' (taken ++ [head]) b := by
  obtain ⟨pre, suf, hsplit, hsub, hsuf⟩ := h
  refine ⟨pre, suf, hsplit, ?_, fun x hx hxb => ?_⟩
  · rw [List.filter_append, List.filter_singleton]
    simpa [hb] using hsub
  · rw [htxs]
    exact hsuf x (by rw [hheads]; exact List.mem_cons_of_mem _ (hnew x hx hxb)) hxb

/-- Taking the root moves it from what is to come of its sender to what is behind. -/
theorem Queued.root (h : Queued orderSender pending t taken (orderSender head))
    (hheads : t.heads = head :: rest) :
    ∃ pre, pre ++ head :: t.txs (orderSender head) = pending (orderSender head) ∧
      ((taken ++ [head]).filter fun tx => orderSender tx = orderSender head).Sublist
        (pre ++ [head]) := by
  obtain ⟨pre, suf, hsplit, hsub, hsuf⟩ := h
  have hsuf' := hsuf head (by rw [hheads]; exact List.mem_cons_self) rfl
  subst hsuf'
  refine ⟨pre, hsplit, ?_⟩
  rw [List.filter_append, List.filter_singleton]
  simpa using hsub.append (List.Sublist.refl [head])

theorem Tracks.not_mem_rest (h : Tracks orderSender pending t taken)
    (hheads : t.heads = head :: rest) {x : τ} (hx : x ∈ rest) : orderSender x ≠ orderSender head := by
  have hnd := h.nodup
  rw [hheads, List.map_cons, List.nodup_cons] at hnd
  exact fun hxa => hnd.1 (hxa ▸ List.mem_map_of_mem hx)

theorem Tracks.nodup_rest (h : Tracks orderSender pending t taken)
    (hheads : t.heads = head :: rest) : (rest.map orderSender).Nodup := by
  have hnd := h.nodup
  rw [hheads, List.map_cons, List.nodup_cons] at hnd
  exact hnd.2

/-- Taking the root and putting the next transaction of its sender in its place keeps the
invariant. -/
theorem Tracks.replace (h : Tracks orderSender pending t taken) (hkeyed : Keyed orderSender pending)
    (hheads : t.heads = head :: rest) {tx : τ} {more : List τ}
    (htxs : t.txs (orderSender head) = tx :: more) {t' : OrderTransactionByNonce τ}
    (hperm : t'.heads.Perm (tx :: rest))
    (htxs' : t'.txs = Function.update t.txs (orderSender head) more) :
    Tracks orderSender pending t' (taken ++ [head]) := by
  set a := orderSender head with ha
  obtain ⟨pre, hsplit, hsub⟩ := (h.queued a).root hheads
  have hrest := fun x (hx : x ∈ rest) => h.not_mem_rest hheads hx
  have htx : orderSender tx = a := hkeyed a tx (by rw [← hsplit, htxs]; simp)
  refine ⟨nodup_map_of_perm hperm ?_, fun b => ?_⟩
  · rw [List.map_cons, List.nodup_cons]
    refine ⟨fun hmem => ?_, h.nodup_rest hheads⟩
    obtain ⟨x, hx, hxa⟩ := List.mem_map.1 hmem
    exact hrest x hx (hxa.trans htx)
  by_cases hb : b = a
  · -- the root's sender: its head moves from what is to come to what is behind
    subst hb
    refine ⟨pre ++ [head], tx :: more, ?_, hsub, fun x hx hxa => ?_⟩
    · rw [← hsplit, htxs]
      simp
    · rcases List.mem_cons.1 (hperm.subset hx) with rfl | hxr
      · simp [htxs']
      · exact absurd hxa (hrest x hxr)
  · refine (h.queued b).other hheads (Ne.symm hb) (fun x hx hxb => ?_) ?_
    · rcases List.mem_cons.1 (hperm.subset hx) with rfl | hxr
      · exact absurd (hxb.symm.trans htx) hb
      · exact hxr
    · rw [htxs']
      exact Function.update_of_ne hb _ _

/-- Taking the root with nothing in its place keeps the invariant: its sender has no head
left. -/
theorem Tracks.drop (h : Tracks orderSender pending t taken) (hheads : t.heads = head :: rest)
    {t' : OrderTransactionByNonce τ} (hperm : t'.heads.Perm rest)
    (htxs' : ∀ b, b ≠ orderSender head → t'.txs b = t.txs b) :
    Tracks orderSender pending t' (taken ++ [head]) := by
  set a := orderSender head with ha
  obtain ⟨pre, hsplit, hsub⟩ := (h.queued a).root hheads
  have hrest := fun x (hx : x ∈ rest) => h.not_mem_rest hheads hx
  refine ⟨nodup_map_of_perm hperm (h.nodup_rest hheads), fun b => ?_⟩
  by_cases hb : b = a
  · subst hb
    refine ⟨pre ++ [head], t.txs (orderSender head), by simpa using hsplit, hsub,
      fun x hx hxa => absurd hxa (hrest x (hperm.subset hx))⟩
  · exact (h.queued b).other hheads (Ne.symm hb) (fun x hx _ => hperm.subset hx)
      (htxs' b hb)

theorem heads_of_peek (hpeek : t.peek = some head) : ∃ rest, t.heads = head :: rest := by
  unfold OrderTransactionByNonce.peek at hpeek
  cases hh : t.heads with
  | nil =>
    rw [hh] at hpeek
    cases hpeek
  | cons x rest =>
    rw [hh] at hpeek
    cases hpeek
    exact ⟨rest, rfl⟩

/-- The root is a pending transaction of its sender. -/
theorem Tracks.head_mem (h : Tracks orderSender pending t taken) (hpeek : t.peek = some head) :
    head ∈ pending (orderSender head) := by
  obtain ⟨rest, hheads⟩ := heads_of_peek hpeek
  obtain ⟨pre, hsplit, -⟩ := (h.queued (orderSender head)).root hheads
  rw [← hsplit]
  exact List.mem_append_right pre List.mem_cons_self

/-- The heads taken so far of an account are in the order of its pending list. -/
theorem Tracks.sublist (h : Tracks orderSender pending t taken) (a : ℕ) :
    (taken.filter fun tx => orderSender tx = a).Sublist (pending a) := by
  obtain ⟨pre, suf, hsplit, hsub, -⟩ := h.queued a
  rw [← hsplit]
  exact hsub.trans (List.sublist_append_left pre suf)

variable [Inhabited τ]

/-- **`Shift` keeps the invariant**, taking the root. -/
theorem Tracks.shift (h : Tracks orderSender pending t taken) (hkeyed : Keyed orderSender pending)
    (hpeek : t.peek = some head) :
    Tracks orderSender pending (t.shift accountNonce orderSender) (taken ++ [head]) := by
  obtain ⟨rest, hheads⟩ := heads_of_peek hpeek
  unfold OrderTransactionByNonce.shift
  rw [hheads]
  dsimp only
  cases htxs : t.txs (orderSender head) with
  | cons tx more =>
    exact h.replace hkeyed hheads htxs (SliceHeap.fix_set_perm rfl) rfl
  | nil =>
    exact h.drop hheads (SliceHeap.pop_snd_perm rfl) fun _ _ => rfl

/-- **`Pop` keeps the invariant**, taking the root. -/
theorem Tracks.pop (h : Tracks orderSender pending t taken) (hpeek : t.peek = some head) :
    Tracks orderSender pending (t.pop accountNonce) (taken ++ [head]) := by
  obtain ⟨rest, hheads⟩ := heads_of_peek hpeek
  exact h.drop hheads (SliceHeap.pop_snd_perm hheads) fun _ _ => rfl

end Taking

/-! ### The start -/

theorem visited_nil : Visited orderSender pending [] (pending, []) where
  nodup := List.nodup_nil
  senders _ h := absurd h List.not_mem_nil
  unvisited _ _ := rfl
  heads _ h := absurd h List.not_mem_nil

/-- One pass of the loop keeps `Visited`, at a key not visited before. -/
theorem Visited.visit {visited : List ℕ} {st : (ℕ → List τ) × List τ}
    (h : Visited orderSender pending visited st) (hkeyed : Keyed orderSender pending) {k : ℕ}
    (hk : k ∉ visited) : Visited orderSender pending (visited ++ [k]) (visitPending orderSender st k) := by
  have hne : ∀ x ∈ st.2, orderSender x ≠ k := fun x hx hxk => hk (hxk ▸ h.senders x hx)
  have hother : ∀ a, a ∉ visited ++ [k] → a ≠ k ∧ a ∉ visited := fun a ha =>
    ⟨fun hak => ha (by simp [hak]), fun hav => ha (List.mem_append_left _ hav)⟩
  unfold visitPending
  rw [h.unvisited k hk]
  cases hp : pending k with
  | nil =>
    refine ⟨h.nodup, fun x hx => List.mem_append_left _ (h.senders x hx), fun a ha => ?_,
      fun x hx => ?_⟩
    · obtain ⟨hak, hav⟩ := hother a ha
      dsimp only
      rw [Function.update_of_ne hak, h.unvisited a hav]
    · dsimp only at hx ⊢
      rw [Function.update_of_ne (hne x hx)]
      exact h.heads x hx
  | cons tx rest =>
    -- the first transaction is the key's own, so the key is kept
    have htx : orderSender tx = k := hkeyed k tx (by simp [hp])
    dsimp only
    rw [htx, if_neg (not_not.2 rfl)]
    refine ⟨?_, fun x hx => ?_, fun a ha => ?_, fun x hx => ?_⟩
    · rw [List.map_append, List.map_singleton, htx]
      exact List.nodup_append.2 ⟨h.nodup, List.nodup_singleton k,
        fun y hy z hz => by
          obtain ⟨x, hx, rfl⟩ := List.mem_map.1 hy
          rw [List.mem_singleton.1 hz]
          exact hne x hx⟩
    · rcases List.mem_append.1 hx with hx | hx
      · exact List.mem_append_left _ (h.senders x hx)
      · rw [List.mem_singleton.1 hx, htx]
        exact List.mem_append_right _ (List.mem_singleton_self k)
    · obtain ⟨hak, hav⟩ := hother a ha
      dsimp only
      rw [Function.update_of_ne hak, h.unvisited a hav]
    · dsimp only at hx ⊢
      rcases List.mem_append.1 hx with hx | hx
      · rw [Function.update_of_ne (hne x hx)]
        exact h.heads x hx
      · rw [List.mem_singleton.1 hx, htx, hp, Function.update_self]

theorem Visited.foldl {visited : List ℕ} {st : (ℕ → List τ) × List τ}
    (hkeyed : Keyed orderSender pending) :
    ∀ keys : List ℕ, Visited orderSender pending visited st → (visited ++ keys).Nodup →
      Visited orderSender pending (visited ++ keys) (keys.foldl (visitPending orderSender) st) := by
  intro keys
  induction keys generalizing visited st with
  | nil =>
    intro h _
    simpa using h
  | cons k keys ih =>
    intro h hnd
    have hk : k ∉ visited := by
      rw [List.nodup_append] at hnd
      exact fun hmem => hnd.2.2 k hmem k List.mem_cons_self rfl
    rw [List.foldl_cons]
    have := ih (h.visit hkeyed hk) (by simpa using hnd)
    simpa using this

variable [Inhabited τ]

/-- **The start keeps the invariant**: for a map keyed by sender and ranged over once per key,
`NewOrderTransactionByNonce` has one head per account, the first of its list. -/
theorem tracks_new (hkeyed : Keyed orderSender pending) {keys : List ℕ} (hkeys : keys.Nodup) :
    Tracks orderSender pending (newOrderTransactionByNonce accountNonce orderSender keys pending)
      [] := by
  have hv := Visited.foldl hkeyed keys visited_nil (by simpa using hkeys)
  simp only [List.nil_append] at hv
  set st := keys.foldl (visitPending orderSender) (pending, []) with hst
  have hperm : (SliceHeap.init (orderTxLess accountNonce) default st.2).Perm st.2 :=
    SliceHeap.init_perm _
  refine ⟨nodup_map_of_perm hperm hv.nodup, fun a => ⟨[], pending a, rfl, by simp,
    fun head hhead hha => ?_⟩⟩
  have hfirst := hv.heads head (hperm.subset hhead)
  rw [hha] at hfirst
  exact hfirst

end XdcSubnet.Core
