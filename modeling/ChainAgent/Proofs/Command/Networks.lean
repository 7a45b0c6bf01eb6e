import ChainAgent.Command.Dispatch
import ChainAgent.Host.World
import ChainAgent.Proofs.Chain.Registry
import ChainAgent.Proofs.Text.Rows

/-! The list of networks.

The names of a registry are trimmed, and the default name is compared with them untrimmed, as the
configuration writes it. So the network of the default executor is marked if and only if its
configured name is trimmed, and no other network is ever marked (`isMarked_iff`). A name has a row
of its own if it has no line break (`networks_listed`). -/
namespace ChainAgent.Command

open Chain (Registry)
open Text (EndsRows rows trim)

/-- The line of a network. -/
def networkLine (isDefault : Bool) (name : String) : String :=
  name ++ if isDefault then " (default)" else ""

theorem countP_networkLine {ends : Char → Bool} (hends : EndsRows ends) (isDefault : Bool)
    (name : String) :
    (networkLine isDefault name).toList.countP ends = name.toList.countP ends := by
  have hmark : (if isDefault then " (default)" else "").toList.countP ends = 0 := by
    refine Text.countP_flat hends ?_
    cases isDefault <;> exact Text.flat_literal (by decide)
  rw [networkLine, String.toList_append, List.countP_append, hmark, Nat.add_zero]

theorem networkLine_inj {a b : Bool} {name : String} (h : networkLine a name = networkLine b name) :
    a = b := by
  have hmark := (String.append_right_inj name).mp h
  cases a <;> cases b <;> first | rfl | exact absurd hmark (by decide)

section Accepted

variable {s : Settings} (haccepted : s.Accepted) {n : Settings.Network}
  (hchosen : s.chain.chosen? = some n)
include haccepted

theorem mem_names_iff (name : String) :
    name ∈ (Registry.ofSettings s.chain).names ↔ ∃ n ∈ s.chain.networks, trim n.name = name :=
  Registry.mem_names_ofSettings (fun n hn => (haccepted.networks n hn).kind) name

include hchosen

/-- The default executor has the trimmed name of the default entry. -/
theorem network_defaultExecutor :
    (Registry.ofSettings s.chain).defaultExecutor.network = trim n.name := by
  obtain ⟨last, -, -, hsame, hdefault⟩ := Registry.defaultExecutor_ofSettings
    (fun n hn => (haccepted.networks n hn).kind) hchosen
  rw [hdefault, ← hsame]
  rfl

/-- The name of the default executor is marked if the default entry has it untrimmed, and no other
name is. -/
theorem isMarked_iff {name : String} (hname : name ∈ (Registry.ofSettings s.chain).names) :
    (some name == s.chain.defaultNetworkName) =
      (name == (Registry.ofSettings s.chain).defaultExecutor.network && trim n.name == n.name) := by
  obtain ⟨o, -, rfl⟩ := (mem_names_iff haccepted name).mp hname
  rw [network_defaultExecutor haccepted hchosen,
    Settings.Chain.defaultNetworkName_of_chosen? hchosen, Bool.eq_iff_iff]
  simp only [beq_iff_eq, Option.some.injEq, Bool.and_eq_true]
  constructor
  · intro hwritten
    rw [← hwritten, Text.trim_trim]
    exact ⟨rfl, rfl⟩
  · rintro ⟨hname, hwritten⟩
    rw [hname, hwritten]

theorem networksText_eq :
    networksText s.chain (Registry.ofSettings s.chain) =
      String.join (((Registry.ofSettings s.chain).names.map fun name =>
        networkLine (name == (Registry.ofSettings s.chain).defaultExecutor.network &&
          trim n.name == n.name) name).map (· ++ "\n")) := by
  have hsome : (Registry.ofSettings s.chain).networks.isEmpty = false := by
    have hmem := (mem_names_iff haccepted _).mpr
      ⟨n, Settings.Chain.mem_of_chosen? hchosen, rfl⟩
    rw [List.isEmpty_eq_false_iff]
    intro hnone
    rw [Registry.names, hnone] at hmem
    cases hmem
  rw [networksText, hsome, List.map_map]
  refine String.empty_append.trans (congrArg String.join (List.map_congr_left fun name hname => ?_))
  simp only [isMarked_iff haccepted hchosen hname]
  rfl

end Accepted

/-- **The networks are printed in the order of their names, and the one of the default executor is
marked if and only if its configured name is trimmed.** If besides no name has a line break, the
list has a row for each of them, with that one marked. -/
theorem networks_listed {m : Type → Type} [Monad m] (h : Host m) {s : Settings}
    (hvalid : s.validate = .ok ()) (hsome : s.chain.networks ≠ []) {ends : Char → Bool}
    (hends : EndsRows ends) (network : Option String) :
    let r := Registry.ofSettings s.chain
    ∃ n text, s.chain.chosen? = some n ∧
      perform h s (.chain network .networks) = pure (.printed text) ∧
      r.names.Pairwise (· < ·) ∧ r.defaultExecutor.network ∈ r.names ∧
      text = String.join ((r.names.map fun name =>
        networkLine (name == r.defaultExecutor.network && trim n.name == n.name) name).map
          (· ++ "\n")) ∧
      (rows ends text =
          (r.names.map fun name => networkLine (name == r.defaultExecutor.network) name) ++ [""] ↔
        trim n.name = n.name ∧ ∀ name ∈ r.names, ∀ c ∈ name.toList, ends c = false) := by
  intro r
  have haccepted := Settings.accepted_of_validate hvalid
  obtain ⟨n, hchosen⟩ := haccepted.exists_chosen hsome
  have hnetwork := network_defaultExecutor haccepted hchosen
  have hmem : r.defaultExecutor.network ∈ r.names :=
    (mem_names_iff haccepted _).mpr ⟨n, Settings.Chain.mem_of_chosen? hchosen, hnetwork.symm⟩
  refine ⟨n, _, hchosen, rfl, Registry.ordered_ofSettings s.chain, hmem,
    networksText_eq haccepted hchosen, ?_⟩
  rw [networksText_eq haccepted hchosen, Text.rows_lines_eq_iff hends (by simp [r])]
  refine and_congr ⟨fun hlines => ?_, fun hwritten => ?_⟩ ?_
  · have hmark := networkLine_inj (List.map_inj_left.mp hlines _ hmem)
    simpa [r] using hmark
  · simp only [hwritten, beq_self_eq_true, Bool.and_true]
    rfl
  · simp only [List.forall_mem_map, ← Bool.not_eq_true, ← List.countP_eq_zero,
      countP_networkLine hends]
    rfl

/-- One network whose name has a leading space: nothing is marked. -/
theorem networks_listed_blank :
    ∃ s : Settings, s.validate = .ok () ∧ s.chain.networks ≠ [] ∧ EndsRows Text.isHardBreak ∧
      (Registry.ofSettings s.chain).defaultExecutor.network = "main" ∧
      perform World.host s (.chain none .networks) = pure (.printed "main\n") ∧
      rows Text.isHardBreak "main\n" ≠ ["main (default)", ""] := by
  let s : Settings := {chain := {networks := [{name := " main", rpcUrl := "http://one"}]}}
  have hvalid : s.validate = .ok () := Settings.validate_of_isOk (by decide +kernel)
  have hsome : s.chain.networks ≠ [] := List.cons_ne_nil _ _
  have hnames : (Registry.ofSettings s.chain).names = ["main"] := by decide +kernel
  have hdefault : (Registry.ofSettings s.chain).defaultExecutor.network = "main" := by decide +kernel
  obtain ⟨n, text, hchosen, hprinted, -, -, htext, hrows⟩ :=
    networks_listed World.host hvalid hsome Text.endsRows_hardBreak none
  cases hchosen
  rw [hnames, hdefault] at htext hrows
  obtain rfl : text = "main\n" := htext.trans (by decide +kernel)
  refine ⟨s, hvalid, hsome, Text.endsRows_hardBreak, hdefault, hprinted, fun hmarked => ?_⟩
  obtain ⟨hwritten, -⟩ := hrows.mp hmarked
  exact absurd hwritten (by decide +kernel)

end ChainAgent.Command
