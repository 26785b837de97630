import XdcSubnet.EngineV2.Instance
import Mathlib.Data.List.Sort

/-!
# Signature and masternode-list helpers

The helpers of `engine_v2/utils.go` (`UniqueSignatures`, `verifyMsgSignature`,
`signSignature`), of `consensus/XDPoS/utils/utils.go` (`Position`, `CompareSignersLists`) and of
`common/types.go` (`RemoveItemFromArray`), with the facts about them the certificate and header
checks use:

* `uniqueSignatures_nodup`, `mem_uniqueSignatures`: `UniqueSignatures` keeps exactly one copy of
  each signature byte string, so what it deduplicates is byte strings, not signers;
* `verifyMsgSignature_eq_ok`: a successful verification recovered the returned signer, and the
  flag says whether that signer is a masternode;
* `removeItemFromArray_eq_filter`: the nested removal loop is a filter.
-/

namespace XdcSubnet.EngineV2

/-- `UniqueSignatures`: the first occurrence of each signature (by its bytes), and the later
occurrences as duplicates. -/
def uniqueSignatures (signatureSlice : List Signature) : List Signature × List Signature :=
  signatureSlice.foldl
    (fun acc signature =>
      if signature ∈ acc.1 then (acc.1, acc.2 ++ [signature]) else (acc.1 ++ [signature], acc.2))
    ([], [])

theorem uniqueSignatures_fold_nodup (sigs : List Signature) (acc : List Signature × List Signature)
    (h : acc.1.Nodup) :
    (sigs.foldl
      (fun acc signature =>
        if signature ∈ acc.1 then (acc.1, acc.2 ++ [signature])
        else (acc.1 ++ [signature], acc.2)) acc).1.Nodup := by
  induction sigs generalizing acc with
  | nil => exact h
  | cons s sigs ih =>
    rw [List.foldl_cons]
    apply ih
    split
    · exact h
    · rename_i hs
      exact List.Nodup.append h (List.nodup_singleton s) (by simpa using hs)

theorem mem_uniqueSignatures_fold (sigs : List Signature) (acc : List Signature × List Signature)
    (s : Signature) :
    s ∈ (sigs.foldl
      (fun acc signature =>
        if signature ∈ acc.1 then (acc.1, acc.2 ++ [signature])
        else (acc.1 ++ [signature], acc.2)) acc).1 ↔ s ∈ acc.1 ∨ s ∈ sigs := by
  induction sigs generalizing acc with
  | nil => simp
  | cons t sigs ih =>
    rw [List.foldl_cons, ih]
    split
    · rename_i ht
      constructor
      · rintro (h | h)
        · exact .inl h
        · exact .inr (List.mem_cons_of_mem t h)
      · rintro (h | h)
        · exact .inl h
        · rcases List.mem_cons.mp h with rfl | h
          · exact .inl ht
          · exact .inr h
    · simp only [List.mem_append, List.mem_cons]
      tauto

/-- **The kept signatures are pairwise distinct byte strings.** -/
theorem uniqueSignatures_nodup (sigs : List Signature) : (uniqueSignatures sigs).1.Nodup :=
  uniqueSignatures_fold_nodup sigs ([], []) List.nodup_nil

/-- **Every signature is kept once**: membership is unchanged. -/
theorem mem_uniqueSignatures (sigs : List Signature) (s : Signature) :
    s ∈ (uniqueSignatures sigs).1 ↔ s ∈ sigs := by
  rw [uniqueSignatures, mem_uniqueSignatures_fold]
  simp

/-- `verifyMsgSignature`: recover the signer of `signedHash`, and report whether it is one of
the masternodes. -/
def verifyMsgSignature (cr : Crypto) (signedHashToBeVerified : Hash) (signature : Signature)
    (masternodes : List Address) : Except Err (Bool × Address) :=
  if masternodes.isEmpty then .error .emptyMasternodeList
  else
    match cr.ecrecover signedHashToBeVerified signature with
    | none => .error .ecrecoverFailed
    | some signerAddress => .ok (decide (signerAddress ∈ masternodes), signerAddress)

/-- A verification that succeeds recovered its signer, and its flag is masternode
membership. -/
theorem verifyMsgSignature_eq_ok {cr : Crypto} {h : Hash} {sig : Signature}
    {masternodes : List Address} {verified : Bool} {signer : Address}
    (hv : verifyMsgSignature cr h sig masternodes = .ok (verified, signer)) :
    cr.ecrecover h sig = some signer ∧ (verified = true ↔ signer ∈ masternodes) := by
  unfold verifyMsgSignature at hv
  split at hv
  · cases hv
  · split at hv
    · cases hv
    · rename_i a hrec
      cases hv
      exact ⟨hrec, by simp⟩

/-- `signSignature`: sign a hash with the engine's signer. -/
def signSignature (cr : Crypto) (signer : Address) (signingHash : Hash) : Except Err Signature :=
  match cr.signFn signer signingHash with
  | none => .error .signFailed
  | some signedHash => .ok signedHash

/-- `utils.Position`: the index of the first occurrence, `none` for Go's `-1`. -/
def position (list : List Address) (x : Address) : Option ℕ :=
  list.findIdx? (· = x)

/-- `common.RemoveItemFromArray`: for each item, remove all its occurrences. -/
def removeItemFromArray (array items : List Address) : List Address :=
  items.foldl (fun newArray item => newArray.filter (· ≠ item)) array

theorem removeItemFromArray_eq_filter (array items : List Address) :
    removeItemFromArray array items = array.filter (· ∉ items) := by
  induction items generalizing array with
  | nil => simp [removeItemFromArray]
  | cons item items ih =>
    simp only [removeItemFromArray, List.foldl_cons] at ih ⊢
    rw [ih, List.filter_filter]
    congr 1
    funext a
    simp only [List.mem_cons, not_or, Bool.decide_and, Bool.and_comm]

/-- `utils.CompareSignersLists`: equal after sorting both copies byte-wise, two empty lists
being equal. -/
def compareSignersLists (list1 list2 : List Address) : Bool :=
  if list1.length = 0 ∧ list2.length = 0 then true
  else if list1.length ≠ list2.length then false
  else decide (list1.insertionSort (· ≤ ·) = list2.insertionSort (· ≤ ·))

end XdcSubnet.EngineV2
