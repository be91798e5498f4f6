import Chhaya.Dart.Sort
import Chhaya.Lib.Firsts
import Chhaya.Network.Onion
import Chhaya.Server.Routes

/-!
# The choice of a path

The path through the onion network is chosen by the client (`OnionRouterService.getOptimalPath`), by the relay
(`getOptimalPath` in `backend/server/src/onion-relay.ts`) and by the server (`GET /onion/path`): the active nodes are
shuffled and sorted by their cost, and the first node of each region is picked. Only the client fills a path that is too
short with other nodes.

- `pickNodes_eq`, `fillNodes_eq`: what the loops pick.
- `goodPath_of_picked`: the first nodes of the regions are a good path, also with other allowed nodes behind them.
- `path_iff`: exactly when every path that may be chosen is good.
-/

namespace Chhaya

namespace OnionNode

/-- `latencyMs / reliability`. -/
def cost (n : OnionNode) : ℚ := n.latencyMs / n.reliability

end OnionNode

/-- The nodes that are known, each once. -/
structure NodeDirectory where
  nodes : List OnionNode
  distinct : (nodes.map OnionNode.id).Nodup

namespace NodeDirectory

def activeNodes (dir : NodeDirectory) : List OnionNode := dir.nodes.filter OnionNode.isActive

theorem nodup_activeNodes (dir : NodeDirectory) : dir.activeNodes.Nodup := (List.Nodup.of_map _ dir.distinct).filter _

end NodeDirectory

/-- What shuffling the active nodes and then sorting them may give. -/
structure Ranking (dir : NodeDirectory) where
  available : List OnionNode
  perm : available.Perm dir.activeNodes
  sorted : available.Pairwise fun a b => a.cost ≤ b.cost

namespace PathSelection

/-! ## The loops -/

section

variable (skip : OnionNode → Bool) (hopCount : Int)

/-- The loop over the sorted nodes, with the nodes picked and the regions used so far. -/
def pickNodes : List OnionNode → List OnionNode → List String → List OnionNode
  | [], picked, _ => picked
  | n :: available, picked, usedRegions =>
    if skip n then pickNodes available picked usedRegions
    else if n.region ∈ usedRegions then pickNodes available picked usedRegions
    else if ((picked ++ [n]).length : Int) = hopCount then picked ++ [n]
    else pickNodes available (picked ++ [n]) (n.region :: usedRegions)

/-- The fallback fill. -/
def fillNodes : List OnionNode → List OnionNode → List OnionNode
  | [], picked => picked
  | n :: available, picked =>
    if n ∈ picked then fillNodes available picked
    else if ((picked ++ [n]).length : Int) = hopCount then picked ++ [n]
    else fillNodes available (picked ++ [n])

end

/-- `excludeRegion != null && n.region == excludeRegion`. -/
def isExcluded (excludeRegion : Option String) (n : OnionNode) : Bool := excludeRegion == some n.region

/-- `excludeRegion && node.region === excludeRegion`: an empty text excludes nothing. -/
def isSkipped (excludeRegion : Option String) (n : OnionNode) : Bool :=
  excludeRegion != some "" && isExcluded excludeRegion n

inductive RangeError
  | negative

/-- The client's `getOptimalPath`. `take` throws when the count is negative. -/
def clientPath (hopCount : Int) (excludeRegion : Option String) (available : List OnionNode) :
    Except RangeError (List OnionNode) :=
  let picked := pickNodes (isExcluded excludeRegion) hopCount available [] []
  let picked := if (picked.length : Int) < hopCount then fillNodes hopCount available picked else picked
  if hopCount < 0 then .error .negative else .ok (picked.take hopCount.toNat)

/-- The relay's `getOptimalPath`. -/
def relayPath (hopCount : Int) (excludeRegion : Option String) (available : List OnionNode) : List OnionNode :=
  pickNodes (isSkipped excludeRegion) hopCount available [] []

/-- `parseInt(req.query.hops) || 3`. -/
def hopsOrThree (hops : Option String) : Int :=
  match Server.parseInt (hops.getD "undefined").toList with
  | none => 3
  | some n => if n = 0 then 3 else n

/-- `GET /onion/path`: the loop is that of the relay. -/
def getOnionPath (hops excludeRegion : Option String) (available : List OnionNode) : List OnionNode :=
  relayPath (hopsOrThree hops) excludeRegion available

section

variable {skip : OnionNode → Bool} {hopCount : Int}

/-- The loop picks the first node of each region, until there are enough. -/
theorem pickNodes_eq (l picked : List OnionNode) (used : List String) : pickNodes skip hopCount l picked used = picked ++
    if (picked.length : Int) < hopCount then
      (firsts OnionNode.region (l.filter fun n => !skip n) used).take (hopCount.toNat - picked.length)
    else firsts OnionNode.region (l.filter fun n => !skip n) used := by
  induction l generalizing picked used with
  | nil => simp [pickNodes, firsts]
  | cons n l ih =>
    unfold pickNodes
    by_cases hskip : skip n = true
    · rw [if_pos hskip, List.filter_cons_of_neg (by simp [hskip]), ih]
    · rw [if_neg hskip, List.filter_cons_of_pos (by simp [hskip])]
      by_cases hused : n.region ∈ used
      · rw [if_pos hused, firsts_cons_of_mem hused, ih]
      · rw [if_neg hused, firsts_cons_of_notMem hused]
        have hlen : (picked ++ [n]).length = picked.length + 1 := by simp
        by_cases hlast : ((picked ++ [n]).length : Int) = hopCount
        · rw [if_pos hlast, if_pos (by omega), show hopCount.toNat - picked.length = 1 by omega]
          rfl
        · rw [if_neg hlast, ih, List.append_assoc, List.singleton_append]
          refine congrArg (picked ++ ·) ?_
          by_cases hlt : (picked.length : Int) < hopCount
          · rw [if_pos hlt, if_pos (by omega),
              show hopCount.toNat - picked.length = hopCount.toNat - (picked ++ [n]).length + 1 by omega, List.take_succ_cons]
          · rw [if_neg hlt, if_neg (by omega)]

/-- The fill takes the nodes that are not picked, until there are enough. -/
theorem fillNodes_eq {l : List OnionNode} (hl : l.Nodup) {picked : List OnionNode} (hlt : (picked.length : Int) < hopCount) :
    fillNodes hopCount l picked = picked ++ (l.filter fun n => n ∉ picked).take (hopCount.toNat - picked.length) := by
  induction l generalizing picked with
  | nil => simp [fillNodes]
  | cons n l ih =>
    obtain ⟨hn, hl⟩ := List.nodup_cons.mp hl
    unfold fillNodes
    by_cases hp : n ∈ picked
    · rw [if_pos hp, List.filter_cons_of_neg (by simp [hp]), ih hl hlt]
    · rw [if_neg hp, List.filter_cons_of_pos (by simp [hp])]
      have hlen : (picked ++ [n]).length = picked.length + 1 := by simp
      by_cases hlast : ((picked ++ [n]).length : Int) = hopCount
      · rw [if_pos hlast, show hopCount.toNat - picked.length = 1 by omega]
        rfl
      · have hrest : (l.filter fun m => m ∉ picked ++ [n]) = l.filter fun m => m ∉ picked := by
          refine List.filter_congr fun m hm => ?_
          have hne : m ≠ n := fun h => hn (h ▸ hm)
          simp [hne]
        rw [if_neg hlast, ih hl (by omega), hrest, List.append_assoc, List.singleton_append,
          show hopCount.toNat - picked.length = hopCount.toNat - (picked ++ [n]).length + 1 by omega, List.take_succ_cons]

end

/-! ## Good paths -/

section

variable (dir : NodeDirectory) (excludeRegion : Option String)

/-- The active nodes outside the excluded region. -/
def allowedNodes : List OnionNode := dir.activeNodes.filter fun n => !isExcluded excludeRegion n

/-- How many regions these are in. -/
def regionCount : Nat := ((allowedNodes dir excludeRegion).map OnionNode.region).dedup.length

/-- Those that are cheaper. -/
def below (cost : ℚ) : List OnionNode := (allowedNodes dir excludeRegion).filter fun n => n.cost < cost

/-- The cheapest node of each allowed region, in the order of the costs, as many as there are or as are asked for. -/
structure Lead (hopCount : Int) (nodes : List OnionNode) : Prop where
  length : nodes.length = min hopCount.toNat (regionCount dir excludeRegion)
  regions : (nodes.map OnionNode.region).Nodup
  ordered : nodes.Pairwise fun a b => a.cost ≤ b.cost
  cheapest : ∀ n ∈ nodes, ∀ m ∈ allowedNodes dir excludeRegion, m.region = n.region → n.cost ≤ m.cost
  first : ∀ n ∈ nodes, ∀ m ∈ allowedNodes dir excludeRegion, m.region ∉ nodes.map OnionNode.region → n.cost ≤ m.cost

/-- What a path should be. -/
structure GoodPath (hopCount : Int) (path : List OnionNode) : Prop where
  distinct : path.Nodup
  active : ∀ n ∈ path, n ∈ dir.activeNodes
  short : (path.length : Int) ≤ hopCount
  allowed : ∀ n ∈ path, excludeRegion ≠ some n.region
  repeats : ¬(path.map OnionNode.region).Nodup → (regionCount dir excludeRegion : Int) < hopCount
  lead : Lead dir excludeRegion hopCount (path.take (regionCount dir excludeRegion))

/-- The fill finds enough allowed nodes that are cheaper than each node of the excluded region. -/
def FillsAllowed (hopCount : Int) : Prop := hopCount ≤ regionCount dir excludeRegion ∨
  ∀ e ∈ dir.activeNodes, excludeRegion = some e.region →
    hopCount ≤ regionCount dir excludeRegion + surplus OnionNode.region (below dir excludeRegion e.cost)

/-- At least one hop is asked for, and an empty region is not excluded, or it is too expensive to be picked; or none is
asked for, and there is none. -/
def Serves (hopCount : Int) : Prop :=
  (0 < hopCount ∧ (excludeRegion ≠ some "" ∨ ∀ e ∈ dir.activeNodes, excludeRegion = some e.region →
    hopCount ≤ ((below dir excludeRegion e.cost).map OnionNode.region).dedup.length)) ∨
  (hopCount = 0 ∧ ∀ n ∈ dir.activeNodes, isSkipped excludeRegion n = true)

end

section

variable {dir : NodeDirectory} {excludeRegion : Option String}

theorem isExcluded_iff {n : OnionNode} : isExcluded excludeRegion n = true ↔ excludeRegion = some n.region := by
  rw [isExcluded, beq_iff_eq]

theorem mem_allowedNodes {n : OnionNode} :
    n ∈ allowedNodes dir excludeRegion ↔ n ∈ dir.activeNodes ∧ excludeRegion ≠ some n.region := by
  rw [allowedNodes, List.mem_filter, Bool.not_eq_true', ← Bool.not_eq_true, isExcluded_iff]

theorem mem_below {n : OnionNode} {c : ℚ} :
    n ∈ below dir excludeRegion c ↔ n ∈ allowedNodes dir excludeRegion ∧ n.cost < c := by
  rw [below, List.mem_filter, decide_eq_true_eq]

theorem nodup_below (c : ℚ) : (below dir excludeRegion c).Nodup := (dir.nodup_activeNodes.filter _).filter _

variable (r : Ranking dir)

theorem mem_available {n : OnionNode} : n ∈ r.available ↔ n ∈ dir.activeNodes := r.perm.mem_iff

theorem nodup_available : r.available.Nodup := r.perm.nodup_iff.mpr dir.nodup_activeNodes

/-- The sorted nodes outside the excluded region. -/
def allowedOf (excludeRegion : Option String) : List OnionNode := r.available.filter fun n => !isExcluded excludeRegion n

/-- The first node of each of their regions. -/
def leadOf (excludeRegion : Option String) : List OnionNode := firsts OnionNode.region (allowedOf r excludeRegion) []

theorem mem_allowedOf {n : OnionNode} : n ∈ allowedOf r excludeRegion ↔ n ∈ allowedNodes dir excludeRegion :=
  (r.perm.filter _).mem_iff

theorem leadOf_subset {n : OnionNode} (h : n ∈ leadOf r excludeRegion) : n ∈ allowedNodes dir excludeRegion :=
  (mem_allowedOf r).mp ((firsts_sublist _ _).subset h)

theorem length_leadOf : (leadOf r excludeRegion).length = regionCount dir excludeRegion := by
  have hperm : (allowedOf r excludeRegion).Perm (allowedNodes dir excludeRegion) := r.perm.filter _
  rw [leadOf, length_firsts, regionCount, ((hperm.map _).dedup).length_eq]

/-- The first nodes of the regions are the cheapest. -/
theorem lead_take (hopCount : Int) : Lead dir excludeRegion hopCount ((leadOf r excludeRegion).take hopCount.toNat) := by
  have hsorted : (allowedOf r excludeRegion).Pairwise fun a b => a.cost ≤ b.cost := r.sorted.filter _
  have hlead : (leadOf r excludeRegion).Pairwise fun a b => a.cost ≤ b.cost := hsorted.sublist (firsts_sublist _ _)
  have hbefore : ∀ n ∈ leadOf r excludeRegion, ∀ m ∈ allowedNodes dir excludeRegion, m.region = n.region →
      n.cost ≤ m.cost := fun n hn m hm hregion =>
    firsts_before (R := fun a b : OnionNode => a.cost ≤ b.cost) (fun _ => le_rfl) hsorted hn ((mem_allowedOf r).mpr hm) hregion
  refine ⟨?_, ?_, hlead.sublist (List.take_sublist _ _), ?_, ?_⟩
  · rw [List.length_take, length_leadOf]
  · exact (nodup_keys_firsts _ _).sublist ((List.take_sublist _ _).map _)
  · exact fun n hn => hbefore n (List.mem_of_mem_take hn)
  · intro n hn m hm hregion
    obtain ⟨f, hf, hfm⟩ : ∃ f ∈ leadOf r excludeRegion, f.region = m.region :=
      exists_mem_firsts ((mem_allowedOf r).mpr hm) List.not_mem_nil
    rw [← List.take_append_drop hopCount.toNat (leadOf r excludeRegion)] at hf hlead
    rcases List.mem_append.mp hf with htake | hdrop
    · exact absurd (List.mem_map.mpr ⟨f, htake, hfm⟩) hregion
    · have hle : n.cost ≤ f.cost := (List.pairwise_append.mp hlead).2.2 n hn f hdrop
      have hf' : f ∈ leadOf r excludeRegion := List.mem_of_mem_drop hdrop
      exact hle.trans (hbefore f hf' m hm hfm.symm)

/-- The first nodes of the regions are a good path, also with other allowed nodes behind them if there are too few. -/
theorem goodPath_of_picked {hopCount : Int} {rest : List OnionNode} (hrest : ∀ n ∈ rest, n ∈ allowedNodes dir excludeRegion)
    (hfew : rest ≠ [] → (regionCount dir excludeRegion : Int) < hopCount)
    (hdistinct : ((leadOf r excludeRegion).take hopCount.toNat ++ rest).Nodup)
    (hshort : (((leadOf r excludeRegion).take hopCount.toNat ++ rest).length : Int) ≤ hopCount) :
    GoodPath dir excludeRegion hopCount ((leadOf r excludeRegion).take hopCount.toNat ++ rest) := by
  have hlength : (leadOf r excludeRegion).length = regionCount dir excludeRegion := length_leadOf r
  have hall : ∀ n ∈ (leadOf r excludeRegion).take hopCount.toNat ++ rest, n ∈ allowedNodes dir excludeRegion := by
    intro n hn
    rcases List.mem_append.mp hn with hn | hn
    · exact leadOf_subset r (List.mem_of_mem_take hn)
    · exact hrest n hn
  have hlead : Lead dir excludeRegion hopCount ((leadOf r excludeRegion).take hopCount.toNat) := lead_take r hopCount
  have htake : ((leadOf r excludeRegion).take hopCount.toNat ++ rest).take (regionCount dir excludeRegion) =
      (leadOf r excludeRegion).take hopCount.toNat := by
    by_cases h : rest = []
    · rw [h, List.append_nil, List.take_of_length_le (by rw [hlead.length]; exact Nat.min_le_right _ _)]
    · have hlt := hfew h
      have hall' : (leadOf r excludeRegion).take hopCount.toNat = leadOf r excludeRegion :=
        List.take_of_length_le (by omega)
      rw [hall', ← hlength, List.take_left]
  refine ⟨hdistinct, fun n hn => (mem_allowedNodes.mp (hall n hn)).1, hshort,
    fun n hn => (mem_allowedNodes.mp (hall n hn)).2, fun hrepeat => ?_, ?_⟩
  · refine hfew fun h => hrepeat ?_
    rw [h, List.append_nil]
    exact hlead.regions
  · rw [htake]
    exact hlead

/-! ## What is chosen -/

/-- The nodes behind the first nodes of the regions, if these are too few. -/
def restOf (excludeRegion : Option String) (hopCount : Int) : List OnionNode :=
  if ((leadOf r excludeRegion).length : Int) < hopCount then
    (r.available.filter fun n => n ∉ leadOf r excludeRegion).take (hopCount.toNat - (leadOf r excludeRegion).length)
  else []

theorem clientPath_negative {hopCount : Int} (h : hopCount < 0) :
    clientPath hopCount excludeRegion r.available = .error .negative := if_pos h

theorem clientPath_eq {hopCount : Int} (h : 0 ≤ hopCount) : clientPath hopCount excludeRegion r.available =
    .ok ((leadOf r excludeRegion).take hopCount.toNat ++ restOf r excludeRegion hopCount) := by
  have hpicked : pickNodes (isExcluded excludeRegion) hopCount r.available [] [] =
      if 0 < hopCount then (leadOf r excludeRegion).take hopCount.toNat else leadOf r excludeRegion := by
    rw [pickNodes_eq, List.nil_append]
    rfl
  unfold clientPath restOf
  rw [if_neg (Int.not_lt.mpr h), hpicked]
  by_cases h0 : 0 < hopCount
  · rw [if_pos h0]
    by_cases hfew : ((leadOf r excludeRegion).length : Int) < hopCount
    · have hall : (leadOf r excludeRegion).take hopCount.toNat = leadOf r excludeRegion :=
        List.take_of_length_le (by omega)
      rw [hall, if_pos hfew, if_pos hfew, fillNodes_eq (nodup_available r) hfew, List.take_of_length_le]
      rw [List.length_append, List.length_take]
      omega
    · have hlen : ¬(((leadOf r excludeRegion).take hopCount.toNat).length : Int) < hopCount := by
        rw [List.length_take]
        omega
      rw [if_neg hlen, if_neg hfew, List.append_nil, List.take_take, Nat.min_self]
  · have hzero : hopCount = 0 := by omega
    subst hzero
    rw [if_neg (by omega), if_neg (by omega), if_neg (by omega), List.append_nil]

/-- The path is without duplicates, and not too long. -/
theorem nodup_picked (hopCount : Int) :
    ((leadOf r excludeRegion).take hopCount.toNat ++ restOf r excludeRegion hopCount).Nodup := by
  have hlead : (leadOf r excludeRegion).Nodup :=
    ((nodup_available r).filter _).sublist (firsts_sublist _ _)
  refine List.nodup_append'.mpr ⟨hlead.sublist (List.take_sublist _ _), ?_, fun n hn hrest => ?_⟩
  · unfold restOf
    split
    · exact ((nodup_available r).filter _).sublist (List.take_sublist _ _)
    · exact List.nodup_nil
  · unfold restOf at hrest
    split at hrest
    · have hno := (List.mem_filter.mp (List.mem_of_mem_take hrest)).2
      rw [decide_eq_true_eq] at hno
      exact hno (List.mem_of_mem_take hn)
    · cases hrest

theorem length_picked {hopCount : Int} (h : 0 ≤ hopCount) :
    (((leadOf r excludeRegion).take hopCount.toNat ++ restOf r excludeRegion hopCount).length : Int) ≤ hopCount := by
  rw [List.length_append, List.length_take, restOf]
  split
  · rw [List.length_take]
    omega
  · rw [List.length_nil]
    omega

/-! ## The first node of the excluded region -/

/-- Where the nodes of the excluded region begin. -/
structure Barred (r : Ranking dir) (excludeRegion : Option String) (before : List OnionNode) (e : OnionNode)
    (after : List OnionNode) : Prop where
  split : r.available = before ++ e :: after
  allowed : ∀ n ∈ before, excludeRegion ≠ some n.region
  excluded : excludeRegion = some e.region

theorem exists_barred {e : OnionNode} (he : e ∈ dir.activeNodes) (hex : excludeRegion = some e.region) :
    ∃ before e' after, Barred r excludeRegion before e' after := by
  have hfind : (r.available.find? (isExcluded excludeRegion)).isSome = true :=
    List.find?_isSome.mpr ⟨e, (mem_available r).mpr he, isExcluded_iff.mpr hex⟩
  obtain ⟨e', he'⟩ := Option.isSome_iff_exists.mp hfind
  obtain ⟨hex', before, after, hsplit, hbefore⟩ := List.find?_eq_some_iff_append.mp he'
  refine ⟨before, e', after, hsplit, fun n hn h => ?_, isExcluded_iff.mp hex'⟩
  have hno := hbefore n hn
  rw [isExcluded_iff.mpr h] at hno
  cases hno

section

variable {r} {before after : List OnionNode} {e : OnionNode} (hb : Barred r excludeRegion before e after)

include hb

/-- The allowed nodes that are cheaper come before it. -/
theorem Barred.below_subset : below dir excludeRegion e.cost ⊆ before := by
  intro m hm
  obtain ⟨hallowed, hcost⟩ := mem_below.mp hm
  obtain ⟨hactive, hex⟩ := mem_allowedNodes.mp hallowed
  have hsorted := r.sorted
  have hmem := (mem_available r).mpr hactive
  rw [hb.split] at hmem hsorted
  rcases List.mem_append.mp hmem with hmem | hmem
  · exact hmem
  · rcases List.mem_cons.mp hmem with rfl | hmem
    · exact absurd hb.excluded hex
    · have hle := (List.pairwise_cons.mp (List.pairwise_append.mp hsorted).2.1).1 m hmem
      exact absurd hcost (not_lt.mpr hle)

theorem Barred.nodup_before : before.Nodup := by
  have h := nodup_available r
  rw [hb.split] at h
  exact (List.nodup_append'.mp h).1

/-- The nodes before it are the first allowed ones. -/
theorem Barred.allowedOf_eq :
    allowedOf r excludeRegion = before ++ after.filter fun n => !isExcluded excludeRegion n := by
  have hall : (before.filter fun n => !isExcluded excludeRegion n) = before := by
    refine List.filter_eq_self.mpr fun n hn => ?_
    rw [Bool.not_eq_true', ← Bool.not_eq_true, isExcluded_iff]
    exact hb.allowed n hn
  rw [allowedOf, hb.split, List.filter_append, hall,
    List.filter_cons_of_neg (by rw [isExcluded_iff.mpr hb.excluded]; decide)]

theorem Barred.leadOf_eq : leadOf r excludeRegion = firsts OnionNode.region before [] ++
    firsts OnionNode.region (after.filter fun n => !isExcluded excludeRegion n) (before.map OnionNode.region) := by
  rw [leadOf, hb.allowedOf_eq, firsts_append, List.append_nil]

/-- The nodes that are not picked: those before it, itself and others. -/
theorem Barred.filter_eq : ∃ others, (r.available.filter fun n => n ∉ leadOf r excludeRegion) =
    (before.filter fun n => n ∉ firsts OnionNode.region before []) ++ e :: others := by
  have hbefore : (before.filter fun n => n ∉ leadOf r excludeRegion) =
      before.filter fun n => n ∉ firsts OnionNode.region before [] := by
    refine List.filter_congr fun n hn => ?_
    have hnot : n ∉ firsts OnionNode.region (after.filter fun n => !isExcluded excludeRegion n)
        (before.map OnionNode.region) := fun h => key_notMem_of_mem_firsts h (List.mem_map_of_mem hn)
    rw [hb.leadOf_eq]
    simp only [List.mem_append, hnot, or_false]
  have he : e ∉ leadOf r excludeRegion := fun h => (mem_allowedNodes.mp (leadOf_subset r h)).2 hb.excluded
  refine ⟨after.filter fun n => n ∉ leadOf r excludeRegion, ?_⟩
  have hfilter : (r.available.filter fun n => n ∉ leadOf r excludeRegion) =
      (before ++ e :: after).filter fun n => n ∉ leadOf r excludeRegion := congrArg _ hb.split
  rw [hfilter, List.filter_append, hbefore, List.filter_cons_of_pos (by rw [decide_eq_true_eq]; exact he)]

/-- The fill is of allowed nodes exactly if enough of them come before it. -/
theorem Barred.restOf_allowed_iff {hopCount : Int} (hfew : ((leadOf r excludeRegion).length : Int) < hopCount) :
    (∀ n ∈ restOf r excludeRegion hopCount, excludeRegion ≠ some n.region) ↔
      hopCount ≤ (leadOf r excludeRegion).length + surplus OnionNode.region before := by
  obtain ⟨others, hfilter⟩ := hb.filter_eq
  have hlen : (before.filter fun n => n ∉ firsts OnionNode.region before []).length = surplus OnionNode.region before :=
    length_filter_firsts hb.nodup_before
  rw [restOf, if_pos hfew, hfilter]
  constructor
  · intro h
    by_contra hlt
    refine h e ?_ hb.excluded
    obtain ⟨k, hk⟩ : ∃ k, hopCount.toNat - (leadOf r excludeRegion).length =
        (before.filter fun n => n ∉ firsts OnionNode.region before []).length + (k + 1) :=
      ⟨hopCount.toNat - (leadOf r excludeRegion).length - surplus OnionNode.region before - 1, by omega⟩
    rw [hk, List.take_length_add_append, List.take_succ_cons]
    exact List.mem_append_right _ List.mem_cons_self
  · intro hle n hn
    rw [List.take_append_of_le_length (by omega)] at hn
    exact hb.allowed n (List.mem_of_mem_filter (List.mem_of_mem_take hn))

end

end

/-! ## The worst ranking -/

section

variable {dir : NodeDirectory} {excludeRegion : Option String}

/-- Of two nodes that cost the same, the one of the excluded region comes first. -/
def BarredFirst (excludeRegion : Option String) (a b : OnionNode) : Prop :=
  a.cost < b.cost ∨ (a.cost = b.cost ∧ (isExcluded excludeRegion a = true ∨ isExcluded excludeRegion b = false))

instance : DecidableRel (BarredFirst excludeRegion) := fun _ _ => inferInstanceAs (Decidable (_ ∨ _))

theorem BarredFirst.le {a b : OnionNode} (h : BarredFirst excludeRegion a b) : a.cost ≤ b.cost := by
  rcases h with h | ⟨h, -⟩
  · exact le_of_lt h
  · exact le_of_eq h

theorem BarredFirst.trans {a b c : OnionNode} (h1 : BarredFirst excludeRegion a b) (h2 : BarredFirst excludeRegion b c) :
    BarredFirst excludeRegion a c := by
  rcases h1 with h1 | ⟨h1, hab⟩
  · exact .inl (lt_of_lt_of_le h1 h2.le)
  · rcases h2 with h2 | ⟨h2, hbc⟩
    · exact .inl (lt_of_le_of_lt (le_of_eq h1) h2)
    · refine .inr ⟨h1.trans h2, ?_⟩
      rcases hab with hab | hab
      · exact .inl hab
      · rcases hbc with hbc | hbc
        · rw [hab] at hbc
          cases hbc
        · exact .inr hbc

theorem barredFirst_total (a b : OnionNode) : BarredFirst excludeRegion a b ∨ BarredFirst excludeRegion b a := by
  rcases lt_trichotomy a.cost b.cost with h | h | h
  · exact .inl (.inl h)
  · by_cases hb : isExcluded excludeRegion b = true
    · exact .inr (.inr ⟨h.symm, .inl hb⟩)
    · exact .inl (.inr ⟨h, .inr (Bool.eq_false_iff.mpr hb)⟩)
  · exact .inr (.inl h)

theorem pairwise_barredFirst (dir : NodeDirectory) (excludeRegion : Option String) :
    ((ListSort.merge (BarredFirst excludeRegion) (fun _ _ _ => BarredFirst.trans) barredFirst_total).sort
      dir.activeNodes).Pairwise (BarredFirst excludeRegion) := ListSort.sorted _ _

/-- The nodes of the excluded region come as early as they may. -/
def worst (dir : NodeDirectory) (excludeRegion : Option String) : Ranking dir where
  available := (ListSort.merge (BarredFirst excludeRegion) (fun _ _ _ => BarredFirst.trans) barredFirst_total).sort
    dir.activeNodes
  perm := ListSort.perm _ _
  sorted := (pairwise_barredFirst dir excludeRegion).imp BarredFirst.le

/-- The nodes before it are allowed and cheaper than each node of the excluded region. -/
theorem Barred.before_subset {before after : List OnionNode} {e e' : OnionNode}
    (hb : Barred (worst dir excludeRegion) excludeRegion before e after) (he : e' ∈ dir.activeNodes)
    (hex : excludeRegion = some e'.region) : before ⊆ below dir excludeRegion e'.cost := by
  have hsorted := pairwise_barredFirst dir excludeRegion
  have hsplit : (ListSort.merge (BarredFirst excludeRegion) (fun _ _ _ => BarredFirst.trans) barredFirst_total).sort
    dir.activeNodes = before ++ e :: after := hb.split
  rw [hsplit] at hsorted
  obtain ⟨-, htail, hcross⟩ := List.pairwise_append.mp hsorted
  have hmem := (mem_available (worst dir excludeRegion)).mpr he
  rw [hb.split] at hmem
  have hle : e.cost ≤ e'.cost := by
    rcases List.mem_append.mp hmem with hmem | hmem
    · exact absurd hex (hb.allowed e' hmem)
    · rcases List.mem_cons.mp hmem with rfl | hmem
      · exact le_rfl
      · exact ((List.pairwise_cons.mp htail).1 e' hmem).le
  intro n hn
  have hactive : n ∈ dir.activeNodes := by
    refine (mem_available (worst dir excludeRegion)).mp ?_
    rw [hb.split]
    exact List.mem_append_left _ hn
  refine mem_below.mpr ⟨mem_allowedNodes.mpr ⟨hactive, hb.allowed n hn⟩, ?_⟩
  rcases hcross n hn e List.mem_cons_self with hlt | ⟨-, hno⟩
  · exact lt_of_lt_of_le hlt hle
  · rw [isExcluded_iff.mpr hb.excluded] at hno
    rcases hno with hno | hno
    · exact absurd (isExcluded_iff.mp hno) (hb.allowed n hn)
    · cases hno

end

/-! ## When every path is good -/

section

variable (dir : NodeDirectory) (excludeRegion : Option String)

/-- The client's paths. -/
theorem clientPath_iff (hopCount : Int) : (∀ (r : Ranking dir) (path : List OnionNode),
    clientPath hopCount excludeRegion r.available = .ok path → GoodPath dir excludeRegion hopCount path) ↔
      FillsAllowed dir excludeRegion hopCount := by
  constructor
  · intro h
    by_contra hno
    unfold FillsAllowed at hno
    push Not at hno
    obtain ⟨hfew, e, he, hex, hlt⟩ := hno
    obtain ⟨before, e', after, hb⟩ := exists_barred (worst dir excludeRegion) he hex
    have hgood := h (worst dir excludeRegion) _ (clientPath_eq _ (by omega))
    have hlead : (leadOf (worst dir excludeRegion) excludeRegion).length = regionCount dir excludeRegion :=
      length_leadOf _
    have hrest := (hb.restOf_allowed_iff (by omega)).mp fun n hn => hgood.allowed n (List.mem_append_right _ hn)
    have hmono : surplus OnionNode.region before ≤ surplus OnionNode.region (below dir excludeRegion e.cost) :=
      surplus_mono (List.subperm_of_subset hb.nodup_before (hb.before_subset he hex))
    omega
  · intro h r path hpath
    rcases lt_or_ge hopCount 0 with hneg | hnonneg
    · rw [clientPath_negative r hneg] at hpath
      cases hpath
    rw [clientPath_eq r hnonneg] at hpath
    cases hpath
    have hlead : (leadOf r excludeRegion).length = regionCount dir excludeRegion := length_leadOf r
    have hactive : ∀ n ∈ restOf r excludeRegion hopCount, n ∈ dir.activeNodes := by
      intro n hn
      unfold restOf at hn
      split at hn
      · exact (mem_available r).mp (List.mem_of_mem_filter (List.mem_of_mem_take hn))
      · cases hn
    refine goodPath_of_picked r (fun n hn => mem_allowedNodes.mpr ⟨hactive n hn, ?_⟩) (fun hne => ?_)
      (nodup_picked r hopCount) (length_picked r hnonneg)
    · intro hex
      have hfew : ((leadOf r excludeRegion).length : Int) < hopCount := by
        by_contra hle
        rw [restOf, if_neg hle] at hn
        cases hn
      obtain ⟨before, e, after, hb⟩ := exists_barred r (hactive n hn) hex
      refine (hb.restOf_allowed_iff hfew).mpr ?_ n hn hex
      have hmono : surplus OnionNode.region (below dir excludeRegion e.cost) ≤ surplus OnionNode.region before :=
        surplus_mono (List.subperm_of_subset (nodup_below _) hb.below_subset)
      have he : e ∈ dir.activeNodes := by
        refine (mem_available r).mp ?_
        rw [hb.split]
        exact List.mem_append_right _ List.mem_cons_self
      rcases h with h | h
      · omega
      · have := h e he hb.excluded
        omega
    · by_contra hle
      rw [restOf, if_neg (by omega)] at hne
      exact hne rfl

variable {dir excludeRegion}

/-- The first nodes of the regions that the server does not skip. -/
def servedOf (r : Ranking dir) (excludeRegion : Option String) : List OnionNode :=
  firsts OnionNode.region (r.available.filter fun n => !isSkipped excludeRegion n) []

theorem relayPath_eq (r : Ranking dir) (hopCount : Int) : relayPath hopCount excludeRegion r.available =
    if 0 < hopCount then (servedOf r excludeRegion).take hopCount.toNat else servedOf r excludeRegion := by
  rw [relayPath, pickNodes_eq, List.nil_append]
  rfl

/-- Where every excluded node is skipped, these are the first nodes of the allowed regions. -/
theorem servedOf_eq (r : Ranking dir)
    (h : ∀ n ∈ dir.activeNodes, excludeRegion = some n.region → isSkipped excludeRegion n = true) :
    servedOf r excludeRegion = leadOf r excludeRegion := by
  rw [servedOf, leadOf, allowedOf]
  refine congrArg (firsts OnionNode.region · []) (List.filter_congr fun n hn => congrArg not ?_)
  rw [Bool.eq_iff_iff, isExcluded_iff]
  constructor
  · intro hskip
    rw [isSkipped, Bool.and_eq_true, isExcluded_iff] at hskip
    exact hskip.2
  · exact h n ((mem_available r).mp hn)

theorem goodPath_lead (r : Ranking dir) {hopCount : Int} (h : 0 ≤ hopCount) :
    GoodPath dir excludeRegion hopCount ((leadOf r excludeRegion).take hopCount.toNat) := by
  have hlead : (leadOf r excludeRegion).Nodup := ((nodup_available r).filter _).sublist (firsts_sublist _ _)
  rw [← List.append_nil ((leadOf r excludeRegion).take hopCount.toNat)]
  refine goodPath_of_picked r (fun n hn => by cases hn) (fun hne => absurd rfl hne) ?_ ?_
  · rw [List.append_nil]
    exact hlead.sublist (List.take_sublist _ _)
  · rw [List.append_nil, List.length_take]
    omega

/-- The excluded region is not skipped only when it is empty. -/
theorem skipped_of_excluded {n : OnionNode} (hne : excludeRegion ≠ some "") (hex : excludeRegion = some n.region) :
    isSkipped excludeRegion n = true := by
  rw [isSkipped, Bool.and_eq_true, isExcluded_iff, bne_iff_ne]
  exact ⟨hne, hex⟩

/-- Nothing is skipped: the first nodes before the excluded region come first. -/
theorem Barred.servedOf_eq {r : Ranking dir} {before after : List OnionNode} {e : OnionNode}
    (hb : Barred r excludeRegion before e after) (hempty : excludeRegion = some "") :
    ∃ others, servedOf r excludeRegion = firsts OnionNode.region before [] ++ e :: others := by
  have hall : (r.available.filter fun n => !isSkipped excludeRegion n) = before ++ e :: after := by
    rw [← hb.split]
    refine List.filter_eq_self.mpr fun n _ => ?_
    rw [isSkipped, hempty]
    rfl
  have hfresh : e.region ∉ before.map OnionNode.region ++ [] := by
    rw [List.append_nil]
    intro h
    obtain ⟨n, hn, hregion⟩ := List.mem_map.mp h
    exact hb.allowed n hn (hregion ▸ hb.excluded)
  rw [servedOf, hall, firsts_append, firsts_cons_of_notMem hfresh]
  exact ⟨_, rfl⟩

variable (dir excludeRegion)

/-- The paths of the server, when at least one hop is asked for. -/
theorem served_iff {hopCount : Int} (hpos : 0 < hopCount) :
    (∀ r : Ranking dir, GoodPath dir excludeRegion hopCount ((servedOf r excludeRegion).take hopCount.toNat)) ↔
      (excludeRegion ≠ some "" ∨ ∀ e ∈ dir.activeNodes, excludeRegion = some e.region →
        hopCount ≤ ((below dir excludeRegion e.cost).map OnionNode.region).dedup.length) := by
  constructor
  · intro h
    by_contra hno
    push Not at hno
    obtain ⟨hempty, e, he, hex, hlt⟩ := hno
    obtain ⟨before, e', after, hb⟩ := exists_barred (worst dir excludeRegion) he hex
    obtain ⟨others, hserved⟩ := hb.servedOf_eq hempty
    have hlen : (firsts OnionNode.region before []).length = (before.map OnionNode.region).dedup.length := length_firsts _
    have hmono := length_keys_mono OnionNode.region (hb.before_subset he hex)
    refine (h (worst dir excludeRegion)).allowed e' ?_ hb.excluded
    obtain ⟨k, hk⟩ : ∃ k, hopCount.toNat = (firsts OnionNode.region before []).length + (k + 1) :=
      ⟨hopCount.toNat - (firsts OnionNode.region before []).length - 1, by omega⟩
    rw [hserved, hk, List.take_length_add_append, List.take_succ_cons]
    exact List.mem_append_right _ List.mem_cons_self
  · intro h r
    by_cases hskip : ∀ n ∈ dir.activeNodes, excludeRegion = some n.region → isSkipped excludeRegion n = true
    · rw [PathSelection.servedOf_eq r hskip]
      exact goodPath_lead r (le_of_lt hpos)
    · push Not at hskip
      obtain ⟨e, he, hex, hno⟩ := hskip
      have hempty : excludeRegion = some "" := by
        by_contra hne
        exact hno (skipped_of_excluded hne hex)
      obtain ⟨before, e', after, hb⟩ := exists_barred r he hex
      obtain ⟨others, hserved⟩ := hb.servedOf_eq hempty
      have he' : e' ∈ dir.activeNodes := by
        refine (mem_available r).mp ?_
        rw [hb.split]
        exact List.mem_append_right _ List.mem_cons_self
      have hlen : (firsts OnionNode.region before []).length = (before.map OnionNode.region).dedup.length :=
        length_firsts _
      have hmono := length_keys_mono OnionNode.region hb.below_subset
      have hle : hopCount.toNat ≤ (firsts OnionNode.region before []).length := by
        have hcount := (h.resolve_left (fun hne => hne hempty)) e' he' hb.excluded
        omega
      have htake : (servedOf r excludeRegion).take hopCount.toNat = (leadOf r excludeRegion).take hopCount.toNat := by
        rw [hserved, hb.leadOf_eq, List.take_append_of_le_length hle, List.take_append_of_le_length hle]
      rw [htake]
      exact goodPath_lead r (le_of_lt hpos)

/-- No hop is asked for: there must be nothing to pick. -/
theorem served_none_iff (f : List OnionNode → List OnionNode) (hf : ∀ l, f l = [] ↔ l = []) :
    (∀ r : Ranking dir, GoodPath dir excludeRegion 0 (f (servedOf r excludeRegion))) ↔
      ∀ n ∈ dir.activeNodes, isSkipped excludeRegion n = true := by
  constructor
  · intro h n hn
    have hshort := (h (worst dir excludeRegion)).short
    have hnone : servedOf (worst dir excludeRegion) excludeRegion = [] :=
      (hf _).mp (List.eq_nil_of_length_eq_zero (by omega))
    by_contra hskip
    have hmem : n ∈ (worst dir excludeRegion).available.filter fun n => !isSkipped excludeRegion n := by
      rw [List.mem_filter, Bool.not_eq_true', ← Bool.not_eq_true]
      exact ⟨(mem_available _).mpr hn, hskip⟩
    obtain ⟨m, hm, -⟩ : ∃ m ∈ servedOf (worst dir excludeRegion) excludeRegion, m.region = n.region :=
      exists_mem_firsts hmem List.not_mem_nil
    rw [hnone] at hm
    cases hm
  · intro h r
    have hnone : servedOf r excludeRegion = [] := by
      rw [servedOf, List.filter_eq_nil_iff.mpr]
      · rfl
      · intro n hn
        rw [h n ((mem_available r).mp hn)]
        decide
    rw [(hf _).mpr hnone]
    exact goodPath_lead r (le_refl (0 : Int))

/-- Fewer than no hops are never met. -/
theorem not_goodPath_negative {hopCount : Int} (h : hopCount < 0) (path : List OnionNode) :
    ¬GoodPath dir excludeRegion hopCount path := fun hgood => by
  have hshort := hgood.short
  omega

/-- The relay's paths. -/
theorem relayPath_iff (hopCount : Int) :
    (∀ r : Ranking dir, GoodPath dir excludeRegion hopCount (relayPath hopCount excludeRegion r.available)) ↔
      Serves dir excludeRegion hopCount := by
  unfold Serves
  rcases lt_trichotomy hopCount 0 with hneg | rfl | hpos
  · refine iff_of_false (fun h => not_goodPath_negative dir excludeRegion hneg _ (h (worst dir excludeRegion))) ?_
    omega
  · have h := served_none_iff dir excludeRegion id fun _ => Iff.rfl
    simp only [relayPath_eq, lt_irrefl, if_false, false_and, true_and, false_or]
    exact h
  · have hne : hopCount ≠ 0 := by omega
    simp only [relayPath_eq, hpos, if_true, true_and, hne, false_and, or_false]
    exact served_iff dir excludeRegion hpos

/-- The hops that a query asks for; a text that is no number asks for three. -/
def requestedHops (hops : Option String) : Int := (Server.parseInt (hops.getD "undefined").toList).getD 3

/-- The server's paths. -/
theorem getOnionPath_iff (hops : Option String) : (∀ r : Ranking dir,
    GoodPath dir excludeRegion (requestedHops hops) (getOnionPath hops excludeRegion r.available)) ↔
      Serves dir excludeRegion (requestedHops hops) := by
  rw [← relayPath_iff]
  unfold getOnionPath hopsOrThree requestedHops
  cases Server.parseInt (hops.getD "undefined").toList with
  | none => exact Iff.rfl
  | some n =>
    dsimp only [Option.getD_some]
    by_cases hn : n = 0
    · subst hn
      have hthree : ∀ l : List OnionNode, l.take 3 = [] ↔ l = [] := by
        intro l
        cases l with
        | nil => exact Iff.rfl
        | cons a l => exact iff_of_false (List.cons_ne_nil _ _) (List.cons_ne_nil _ _)
      have h3 := served_none_iff dir excludeRegion (List.take 3) hthree
      have h0 := served_none_iff dir excludeRegion id fun _ => Iff.rfl
      simp only [relayPath_eq]
      exact h3.trans h0.symm
    · rw [if_neg hn]

/-- Every path that the client, the server or the relay may choose is good exactly if the fill finds enough allowed nodes,
or at least one hop is asked for. -/
theorem path_iff :
    (∀ hopCount : Int, (∀ (r : Ranking dir) (path : List OnionNode),
        clientPath hopCount excludeRegion r.available = .ok path → GoodPath dir excludeRegion hopCount path) ↔
      FillsAllowed dir excludeRegion hopCount) ∧
    (∀ hops : Option String, (∀ r : Ranking dir,
        GoodPath dir excludeRegion (requestedHops hops) (getOnionPath hops excludeRegion r.available)) ↔
      Serves dir excludeRegion (requestedHops hops)) ∧
    ∀ hopCount : Int,
      (∀ r : Ranking dir, GoodPath dir excludeRegion hopCount (relayPath hopCount excludeRegion r.available)) ↔
        Serves dir excludeRegion hopCount :=
  ⟨clientPath_iff dir excludeRegion, getOnionPath_iff dir excludeRegion, relayPath_iff dir excludeRegion⟩

/-- A node of `_initializeDirectory` that draws a key of zeros, the least latency and the least reliability. -/
def directoryNode (id address region : String) : OnionNode where
  id := id
  address := address
  publicKey := List.replicate 32 0
  latencyMs := 45
  region := region
  reliability := 23 / 25
  reliable := by norm_num

/-- The eight nodes of the client. -/
def clientDirectory : NodeDirectory where
  nodes := [directoryNode "node_us-east_000" "us-east.chhaya.network:8443" "us-east",
    directoryNode "node_eu-west_001" "eu-west.chhaya.network:8444" "eu-west",
    directoryNode "node_ap-south_002" "ap-south.chhaya.network:8445" "ap-south",
    directoryNode "node_us-west_003" "us-west.chhaya.network:8446" "us-west",
    directoryNode "node_eu-north_004" "eu-north.chhaya.network:8447" "eu-north",
    directoryNode "node_ap-east_005" "ap-east.chhaya.network:8448" "ap-east",
    directoryNode "node_sa-east_006" "sa-east.chhaya.network:8449" "sa-east",
    directoryNode "node_af-south_007" "af-south.chhaya.network:8450" "af-south"]
  distinct := by decide

/-- The path of eight hops fills up with the node of the region that the client excludes. -/
theorem excluded_on_path : ¬∀ (r : Ranking clientDirectory) (path : List OnionNode),
    clientPath 8 (some "eu-west") r.available = .ok path → GoodPath clientDirectory (some "eu-west") 8 path := by
  intro h
  -- all nodes cost the same, so that any order of them is sorted
  have hcost : ∀ n ∈ clientDirectory.nodes, n.cost = (directoryNode "" "" "").cost := by
    simp [clientDirectory, directoryNode, OnionNode.cost]
  have hsorted : clientDirectory.nodes.Pairwise fun a b => a.cost ≤ b.cost :=
    List.pairwise_of_forall_mem_list fun a ha b hb => ((hcost a ha).trans (hcost b hb).symm).le
  have hpath : ∃ path, clientPath 8 (some "eu-west") clientDirectory.nodes = .ok path ∧
      directoryNode "node_eu-west_001" "eu-west.chhaya.network:8444" "eu-west" ∈ path := by
    simp [clientPath, pickNodes, fillNodes, isExcluded, clientDirectory, directoryNode]
  obtain ⟨path, hp, hmem⟩ := hpath
  exact (h ⟨clientDirectory.nodes, List.Perm.refl _, hsorted⟩ path hp).allowed _ hmem rfl

end

end PathSelection

end Chhaya
