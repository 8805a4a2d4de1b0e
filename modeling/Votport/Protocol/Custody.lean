import Votport.Foundation.HashChain
import Votport.Protocol.Routes
import Mathlib.Data.List.Dedup

/-!
# The chain of custody

A port accepts a route together with the receipts of the hops before it.  The receipts
form a simple path of ports that ends at the receiver, every hop is signed by both of its
ports, carries the same manifest and the digest of the receipt before it, and permits the
next one.  The route determines its receipts, so that none of them can be taken away, put
in twice, moved or replaced.
-/

namespace Votport

/-! ### Hops -/

/-- The receipts are linked through the digests that their routes carry. -/
def CustodyLinked (env : StatementEnv) (ancestors : List RouteReceipt) : Prop :=
  HashChain.Linked (fun r => some (RouteReceipt.digest env r))
    (fun r => r.document.source.document.parentReceipt) none ancestors

/-- The digest of the last of the receipts. -/
def custodyTip (env : StatementEnv) (ancestors : List RouteReceipt) : Option String :=
  HashChain.tip (fun r => some (RouteReceipt.digest env r)) none ancestors

/-- What is known of a route that verifies. -/
structure SignedRoute.Verified (env : StatementEnv) (route : SignedRoute) : Prop where
  nodup : route.document.visited.Nodup
  hops : route.document.visited.length ≤ 8
  last : route.document.visited.getLast? = some route.document.issuer
  signature : Votport.verify env route.document.issuer route.signature
    ((Statement.route route.document).message env) = true

variable {env : StatementEnv}

theorem SignedRoute.verified {route : SignedRoute} (h : route.verify env = true) :
  route.Verified env
  := by
  rw [SignedRoute.verify] at h
  simp only [Bool.and_eq_true, decide_eq_true_eq] at h
  obtain ⟨⟨⟨⟨⟨⟨_, hhops⟩, _⟩, hdedup⟩, hlast⟩, _⟩, hsignature⟩ := h
  refine ⟨?_, hhops, hlast, hsignature⟩
  have hsame : route.document.visited.dedup = route.document.visited :=
    List.Sublist.eq_of_length (List.dedup_sublist _) hdedup
  rw [← hsame]
  exact List.nodup_dedup _

/-- What is known of a route that a port may receive. -/
theorem SignedRoute.of_admits
    {route : SignedRoute} {receiver : String} (h : route.admits env receiver = true) :
  route.Verified env ∧ receiver ∉ route.document.visited
    ∧ ∀ p ∈ route.document.permission, p.receiver = receiver
  := by
  rw [SignedRoute.admits] at h
  simp only [Bool.and_eq_true, Bool.not_eq_true', List.contains_eq_mem,
    decide_eq_false_iff_not, Option.all_eq_true, decide_eq_true_eq] at h
  obtain ⟨⟨⟨hverify, _⟩, hvisited⟩, hpermission⟩ := h
  exact ⟨verified hverify, hvisited, hpermission⟩

/-- What is known of the receipt at a place of the chain. -/
structure AncestorVerified (env : StatementEnv) (source : SignedRoute)
    (ancestors : List RouteReceipt) (receipt : RouteReceipt) (index : Nat) : Prop where
  receiver : source.document.visited[index + 1]? = some receipt.document.receiver
  route : receipt.document.source.Verified env
  permitted : ∀ p ∈ receipt.document.source.document.permission,
    p.receiver = receipt.document.receiver ∧ p.forwarding = true
  signature : verify env receipt.document.receiver receipt.signature
    ((Statement.receipt receipt.document).message env) = true
  visited : receipt.document.source.document.visited
    = source.document.visited.take (index + 1)
  manifest : receipt.document.source.document.manifest = source.document.manifest
  parent : receipt.document.source.document.parentReceipt
    = if index = 0 then none else ancestors[index - 1]?.map (RouteReceipt.digest env)

theorem ancestorVerified
    {source : SignedRoute} {ancestors : List RouteReceipt} {receipt : RouteReceipt}
    {index : Nat} (h : verifyAncestor env source ancestors receipt index = true) :
  AncestorVerified env source ancestors receipt index
  := by
  rw [verifyAncestor] at h
  simp only [Bool.and_eq_true, decide_eq_true_eq, Option.any_eq_true, Option.all_eq_true] at h
  obtain ⟨⟨⟨⟨⟨port, hport, hreceipt⟩, hforwarding⟩, hvisited⟩, hmanifest⟩, hparent⟩ := h
  rw [RouteReceipt.verify] at hreceipt
  simp only [Bool.and_eq_true, decide_eq_true_eq] at hreceipt
  obtain ⟨⟨⟨⟨rfl, hadmits⟩, _⟩, _⟩, hsignature⟩ := hreceipt
  obtain ⟨hroute, _, hpermission⟩ := SignedRoute.of_admits hadmits
  refine ⟨hport, hroute, ?_, hsignature, hvisited, hmanifest, hparent⟩
  intro p hp
  exact ⟨hpermission p hp, hforwarding p hp⟩

/-- What is known of a route with its receipts. -/
structure AncestryVerified (env : StatementEnv) (source : SignedRoute)
    (ancestors : List RouteReceipt) : Prop where
  route : source.Verified env
  length : ancestors.length + 1 = source.document.visited.length
  parent : source.document.parentReceipt = custodyTip env ancestors
  ancestor : ∀ i r, ancestors[i]? = some r → AncestorVerified env source ancestors r i

theorem ancestryVerified
    {source : SignedRoute} {ancestors : List RouteReceipt}
    (h : verifyAncestry env source ancestors = true) :
  AncestryVerified env source ancestors
  := by
  rw [verifyAncestry] at h
  simp only [Bool.and_eq_true, decide_eq_true_eq, List.all_eq_true] at h
  obtain ⟨⟨⟨hverify, hlength⟩, hparent⟩, hall⟩ := h
  refine ⟨SignedRoute.verified hverify, hlength, ?_, ?_⟩
  · rw [hparent, custodyTip, HashChain.tip_eq_getLast?]
    cases ancestors.getLast? with
    | none => rfl
    | some r => rfl
  · intro i r hr
    exact ancestorVerified (hall (r, i) (List.mem_zipIdx_iff_getElem?.mpr hr))

/-! ### The chain -/

theorem AncestryVerified.linked
    {source : SignedRoute} {ancestors : List RouteReceipt}
    (h : AncestryVerified env source ancestors) :
  CustodyLinked env ancestors
  := by
  apply HashChain.linked_of_getElem
  · intro r hr
    rw [(h.ancestor 0 r hr).parent, if_pos rfl]
  · intro i r r' hr hr'
    rw [(h.ancestor (i + 1) r' hr').parent, if_neg (Nat.succ_ne_zero i), Nat.add_sub_cancel, hr]
    rfl

/-- The route determines its receipts, as long as no other receipt has the digest of one of
them. -/
theorem AncestryVerified.unique
    {source source' : SignedRoute} {ancestors ancestors' : List RouteReceipt}
    (hdigest : ∀ r ∈ ancestors, ∀ r', RouteReceipt.digest env r = RouteReceipt.digest env r' →
      r = r')
    (h : AncestryVerified env source ancestors) (h' : AncestryVerified env source' ancestors')
    (hsame : source'.document = source.document) :
  ancestors' = ancestors
  := by
  apply HashChain.eq_of_tip_eq h'.linked h.linked
  · intro r' _ r hr he
    exact (hdigest r hr r' (Option.some.inj he.symm)).symm
  · intro r _
    exact Option.some_ne_none _
  · intro r _
    exact Option.some_ne_none _
  · have hparent := h'.parent
    rw [hsame, h.parent] at hparent
    exact hparent.symm

/-- The issuer of a hop is the port at its place of the path. -/
theorem AncestorVerified.issuer
    {source : SignedRoute} {ancestors : List RouteReceipt} {receipt : RouteReceipt}
    {index : Nat} (h : AncestorVerified env source ancestors receipt index)
    (hindex : index < source.document.visited.length) :
  source.document.visited[index]? = some receipt.document.source.document.issuer
  := by
  have hlast := h.route.last
  rw [h.visited, List.getLast?_eq_getElem?, List.length_take,
    Nat.min_eq_left (Nat.succ_le_of_lt hindex), Nat.succ_sub_one, List.getElem?_take,
    if_pos (Nat.lt_succ_self index)] at hlast
  exact hlast

/-- The chain of custody of a route that a port accepts. -/
structure CustodyChain (env : StatementEnv) (signs : String → Statement → Prop)
    (receiver : String) (source : SignedRoute) (ancestors : List RouteReceipt) : Prop where
  /-- No port is repeated, and there are at most eight hops. -/
  simple : (source.document.visited ++ [receiver]).Nodup
  hops : source.document.visited.length ≤ 8
  /-- The hops go from port to port along the path. -/
  issuers : ancestors.map (·.document.source.document.issuer) ++ [source.document.issuer]
    = source.document.visited
  receivers : ancestors.map (·.document.receiver) = source.document.visited.tail
  /-- Every receipt is signed by the port that received the hop, and every route by the
  port that sent it. -/
  received : ∀ r ∈ ancestors, signs r.document.receiver (.receipt r.document)
  sent : ∀ route ∈ ancestors.map (·.document.source) ++ [source],
    signs route.document.issuer (.route route.document)
  manifest : ∀ r ∈ ancestors, r.document.source.document.manifest = source.document.manifest
  /-- Every hop carries the digest of the receipt before it. -/
  linked : CustodyLinked env ancestors
  parent : source.document.parentReceipt = custodyTip env ancestors
  /-- The hops before the last one permit forwarding, and every hop its receiver. -/
  forwarding : ∀ r ∈ ancestors, ∀ p ∈ r.document.source.document.permission,
    p.receiver = r.document.receiver ∧ p.forwarding = true
  permitted : ∀ p ∈ source.document.permission, p.receiver = receiver

theorem AncestryVerified.issuers
    {source : SignedRoute} {ancestors : List RouteReceipt}
    (h : AncestryVerified env source ancestors) :
  ancestors.map (·.document.source.document.issuer) ++ [source.document.issuer]
    = source.document.visited
  := by
  have hlength := h.length
  apply List.ext_getElem?
  intro i
  by_cases hi : i < ancestors.length
  · rw [List.getElem?_append_left (by simpa using hi), List.getElem?_map,
      List.getElem?_eq_getElem hi, Option.map_some]
    symm
    exact (h.ancestor i _ (List.getElem?_eq_getElem hi)).issuer (by omega)
  · rw [List.getElem?_append_right (by simpa using hi), List.length_map]
    have hlast := h.route.last
    rw [List.getLast?_eq_getElem?, ← hlength, Nat.add_sub_cancel] at hlast
    by_cases hie : i = ancestors.length
    · rw [hie, hlast, Nat.sub_self]
      rfl
    · rw [List.getElem?_eq_none (by simp; omega), List.getElem?_eq_none (by omega)]

theorem AncestryVerified.receivers
    {source : SignedRoute} {ancestors : List RouteReceipt}
    (h : AncestryVerified env source ancestors) :
  ancestors.map (·.document.receiver) = source.document.visited.tail
  := by
  have hlength := h.length
  apply List.ext_getElem?
  intro i
  rw [List.getElem?_map, List.getElem?_tail]
  by_cases hi : i < ancestors.length
  · rw [List.getElem?_eq_getElem hi, Option.map_some]
    exact (h.ancestor i _ (List.getElem?_eq_getElem hi)).receiver.symm
  · rw [List.getElem?_eq_none (by omega), List.getElem?_eq_none (by omega)]
    rfl

/-- What a port accepts has a chain of custody, and the route is accepted with no other
receipts: another list of them is refused with the same statement, and is only accepted
with a statement that its issuer has signed instead. -/
theorem acceptsRoute_chain
    {env : StatementEnv} (signs : String → Statement → Prop)
    (hunforgeable : ∀ key signature s, verify env key signature (s.message env) = true →
      signs key s)
    {receiver : String} {source : SignedRoute} {ancestors : List RouteReceipt}
    (hdigest : ∀ r ∈ ancestors, ∀ r', RouteReceipt.digest env r = RouteReceipt.digest env r' →
      r = r')
    (h : acceptsRoute env receiver source ancestors = true) :
  CustodyChain env signs receiver source ancestors
    ∧ ∀ source' ancestors', ancestors' ≠ ancestors →
        (source'.document = source.document →
          verifyAncestry env source' ancestors' = false)
        ∧ (verifyAncestry env source' ancestors' = true →
          source'.document ≠ source.document
            ∧ signs source'.document.issuer (.route source'.document))
  := by
  obtain ⟨hadmits, hancestry⟩ := Bool.and_eq_true_iff.mp h
  obtain ⟨hroute, hnew, hpermission⟩ := SignedRoute.of_admits hadmits
  have hverified := ancestryVerified hancestry
  have hhop : ∀ r ∈ ancestors, ∃ i, AncestorVerified env source ancestors r i := by
    intro r hr
    obtain ⟨i, hi⟩ := List.mem_iff_getElem?.mp hr
    exact ⟨i, hverified.ancestor i r hi⟩
  constructor
  · constructor
    · rw [List.nodup_append]
      refine ⟨hroute.nodup, List.nodup_singleton _, ?_⟩
      intro port hport port' hport' he
      rw [he, List.mem_singleton.mp hport'] at hport
      exact hnew hport
    · exact hroute.hops
    · exact hverified.issuers
    · exact hverified.receivers
    · intro r hr
      obtain ⟨i, hi⟩ := hhop r hr
      exact hunforgeable _ _ _ hi.signature
    · intro route hmem
      rcases List.mem_append.mp hmem with hmem | hmem
      · obtain ⟨r, hr, rfl⟩ := List.mem_map.mp hmem
        obtain ⟨i, hi⟩ := hhop r hr
        exact hunforgeable _ _ _ hi.route.signature
      · rw [List.mem_singleton.mp hmem]
        exact hunforgeable _ _ _ hroute.signature
    · intro r hr
      obtain ⟨i, hi⟩ := hhop r hr
      exact hi.manifest
    · exact hverified.linked
    · exact hverified.parent
    · intro r hr p hp
      obtain ⟨i, hi⟩ := hhop r hr
      exact hi.permitted p hp
    · exact hpermission
  · intro source' ancestors' hne
    have hdifferent : verifyAncestry env source' ancestors' = true →
        source'.document ≠ source.document := by
      intro haccepted hsame
      exact hne (hverified.unique hdigest (ancestryVerified haccepted) hsame)
    refine ⟨?_, ?_⟩
    · intro hsame
      by_contra hno
      exact hdifferent (Bool.not_eq_false _ ▸ hno) hsame
    · intro haccepted
      exact ⟨hdifferent haccepted,
        hunforgeable _ _ _ (ancestryVerified haccepted).route.signature⟩

/-! ### A forwarded route -/

/-- A key of one digit. -/
def sampleKey (c : Char) : String := String.ofList (List.replicate 64 c)

/-- A route of the visited ports, each of which signs with its key twice. -/
def sampleRoute (visited : List Char) (parentReceipt : Option String) : SignedRoute where
  document :=
    { issuer := sampleKey (visited.getLastD 'a')
      operationId := "job"
      manifest := sampleKey '0'
      label := "Delivery"
      metadata := ⟨[], List.Pairwise.nil⟩
      parentReceipt := parentReceipt
      visited := visited.map sampleKey
      permission := none }
  signature := sampleKey (visited.getLastD 'a') ++ sampleKey (visited.getLastD 'a')

/-- The receipt of the first hop. -/
def sampleReceipt : RouteReceipt where
  document := ⟨sampleRoute ['a'] none, sampleKey 'b', "upload", 1⟩
  signature := sampleKey 'b' ++ sampleKey 'b'

/-- Signatures repeat the key, and the receipt of the first hop has a digest of its own. -/
def sampleStatementEnv : StatementEnv where
  json _ := []
  receiptJson r := if r = sampleReceipt then [1] else [0]
  sha256 bytes := List.replicate 32 (bytes.headD 0)
  verifyStrict key signature _ := signature = key ++ key

theorem acceptsRoute_chain_forwarded :
  CustodyChain sampleStatementEnv
      (fun key s => ∃ signature,
        verify sampleStatementEnv key signature (s.message sampleStatementEnv) = true)
      (sampleKey 'c') (sampleRoute ['a', 'b'] (some (sampleReceipt.digest sampleStatementEnv)))
      [sampleReceipt]
    ∧ verifyAncestry sampleStatementEnv
        (sampleRoute ['a', 'b'] (some (sampleReceipt.digest sampleStatementEnv))) [] = false
  := by
  have haccepts : acceptsRoute sampleStatementEnv (sampleKey 'c')
      (sampleRoute ['a', 'b'] (some (sampleReceipt.digest sampleStatementEnv)))
      [sampleReceipt] = true := by
    decide +kernel
  have hdigest : ∀ r ∈ [sampleReceipt], ∀ r',
      RouteReceipt.digest sampleStatementEnv r = RouteReceipt.digest sampleStatementEnv r' →
        r = r' := by
    intro r hr r' he
    rw [List.mem_singleton.mp hr] at he ⊢
    by_contra hne
    rw [RouteReceipt.digest, RouteReceipt.digest] at he
    simp only [sampleStatementEnv, if_neg (Ne.symm hne), if_true] at he
    exact absurd he (by decide +kernel)
  have h := acceptsRoute_chain
    (fun key s => ∃ signature,
      verify sampleStatementEnv key signature (s.message sampleStatementEnv) = true)
    (fun _ signature _ h => ⟨signature, h⟩) hdigest haccepts
  exact ⟨h.1, (h.2 _ [] (by simp)).1 rfl⟩

end Votport
