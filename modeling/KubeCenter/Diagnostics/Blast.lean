import KubeCenter.Core.Bfs
import KubeCenter.Core.GoSlice
import KubeCenter.Topology.Types

/-! What a resource's failure affects, in the topology graph. -/

namespace KubeCenter.Diagnostics

open KubeCenter.Core
open KubeCenter.Topology (Graph Node Edge EdgeType Health)

structure AffectedResource where
  kind : String
  name : String
  health : Health
  impact : String
  deriving DecidableEq

structure BlastResult where
  directlyAffected : List AffectedResource := []
  potentiallyAffected : List AffectedResource := []
  deriving DecidableEq

def impactDescription (edgeType : EdgeType) (direction : String) : String :=
  match edgeType with
  | .owner =>
    if direction = "downstream" then "Owned resource — will fail with parent"
    else "Owner — may be degraded by child failure"
  | .selector =>
    if direction = "downstream" then "Selected resource — traffic may be affected"
    else "Selector source — routing depends on this resource"
  | .mount =>
    if direction = "downstream" then "Mounted volume — data dependency" else "Mount consumer — depends on this volume"
  | .ingress =>
    if direction = "downstream" then "Backend service — ingress traffic affected"
    else "Ingress — external traffic may be affected"
  | _ => "Related (" ++ direction ++ ")"

/-- The neighbours of a node, over the edges that it is the near end of. -/
def neighbours (near far : Edge → String) (edges : List Edge) (id : String) : List (String × EdgeType) :=
  ((groupBy near edges).get id).map (fun e ↦ (far e, e.type))

def children (edges : List Edge) : String → List (String × EdgeType) := neighbours Edge.source Edge.target edges

def parents (edges : List Edge) : String → List (String × EdgeType) := neighbours Edge.target Edge.source edges

def nodeMap (nodes : List Node) : GoMap String Node := GoMap.indexBy Node.id id nodes

/-- The entry of what a search found, where the graph has a node of the ID. -/
def affected (nodes : GoMap String Node) (direction : String) (found : String × EdgeType) : Option AffectedResource :=
  (nodes.lookup found.1).map (fun node ↦
    { kind := node.kind, name := node.name, health := node.health, impact := impactDescription found.2 direction })

/-- There are at most as many rounds as edges, and the target's own. -/
def computeBlastRadius (graph : Option Graph) (targetID : String) : Option BlastResult :=
  match graph with
  | none => some {}
  | some graph =>
    if targetID = "" then some {}
    else
      let fuel := graph.edges.length + 1
      match Bfs.search (children graph.edges) fuel (Bfs.start targetID),
        Bfs.search (parents graph.edges) fuel (Bfs.start targetID) with
      | some down, some up =>
        some
          { directlyAffected := down.found.filterMap (affected (nodeMap graph.nodes) "downstream")
            potentiallyAffected := up.found.filterMap (affected (nodeMap graph.nodes) "upstream") }
      | _, _ => none

/-! ## Reachability -/

/-- There is an edge from the one to the other, in the direction that its ends are given in. -/
def Along (near far : Edge → String) (g : Graph) (u v : String) : Prop := ∃ e ∈ g.edges, near e = u ∧ far e = v

def Reaches (near far : Edge → String) (g : Graph) : String → String → Prop := Relation.ReflTransGen (Along near far g)

/-- An entry is a node with the impact of an edge that leads to it. -/
def Describes (near far : Edge → String) (g : Graph) (target direction : String) (node : Node)
    (r : AffectedResource) : Prop :=
  r.kind = node.kind ∧ r.name = node.name ∧ r.health = node.health ∧
    ∃ e ∈ g.edges, Reaches near far g target (near e) ∧ far e = node.id ∧ r.impact = impactDescription e.type direction

/-- The entries are the nodes other than the target that can be reached from it, each once and the closest first. -/
structure Exact (near far : Edge → String) (g : Graph) (target direction : String) (nodes : List Node)
    (resources : List AffectedResource) : Prop where
  listed : ∀ node ∈ nodes, node ∈ g.nodes
  once : (nodes.map Node.id).Nodup
  reachable : ∀ id, id ∈ nodes.map Node.id ↔ id ∈ g.nodes.map Node.id ∧ id ≠ target ∧ Reaches near far g target id
  closestFirst : (nodes.map Node.id).Pairwise (Bfs.Nearer (Along near far g) target)
  entries : List.Forall₂ (Describes near far g target direction) nodes resources

variable {near far : Edge → String} {g : Graph} {target direction : String}

theorem mem_neighbours {edges : List Edge} {u : String} {x : String × EdgeType} :
    x ∈ neighbours near far edges u ↔ ∃ e ∈ edges, near e = u ∧ (far e, e.type) = x := by
  simp only [neighbours, get_groupBy, List.mem_map, List.mem_filter, decide_eq_true_eq, and_assoc]

theorem step_neighbours : Bfs.Step (neighbours near far g.edges) = Along near far g := by
  ext u v
  simp [Bfs.Step, Along, mem_neighbours]

/-- There is a round for the far end of every edge. -/
theorem search_ends (near far : Edge → String) (edges : List Edge) (target : String) :
    ∃ s, Bfs.search (neighbours near far edges) (edges.length + 1) (Bfs.start target) = some s := by
  refine Option.isSome_iff_exists.mp (Bfs.isSome_search (edges.map far).toFinset ?_ _ _ ?_)
  · intro u x hx
    obtain ⟨e, he, -, rfl⟩ := mem_neighbours.mp hx
    rw [List.mem_toFinset]
    exact List.mem_map_of_mem he
  · have hcard : (edges.map far).toFinset.card ≤ edges.length :=
      (List.toFinset_card_le _).trans_eq (List.length_map far)
    have hfilter := Finset.card_filter_le (edges.map far).toFinset
      (fun x ↦ x ∉ (Bfs.start target : Bfs.State String EdgeType).visited)
    unfold Bfs.rounds
    have hqueue : (Bfs.start target : Bfs.State String EdgeType).queue.length = 1 := rfl
    omega

theorem lookup_nodeMap_isSome {nodes : List Node} {id : String} :
    ((nodeMap nodes).lookup id).isSome ↔ id ∈ nodes.map Node.id := by
  rw [nodeMap, GoMap.lookup_indexBy_isSome, List.mem_map]

theorem mem_of_lookup_nodeMap {nodes : List Node} {id : String} {node : Node}
    (h : (nodeMap nodes).lookup id = some node) : node ∈ nodes ∧ node.id = id := by
  obtain ⟨found, hfound, hid, rfl⟩ := GoMap.mem_of_lookup_indexBy h
  exact ⟨hfound, hid⟩

/-- The nodes of what a search found. -/
def foundNodes (g : Graph) (found : List (String × EdgeType)) : List Node :=
  found.filterMap (fun x ↦ (nodeMap g.nodes).lookup x.1)

theorem map_id_foundNodes (found : List (String × EdgeType)) :
    (foundNodes g found).map Node.id = (found.map Prod.fst).filter (fun id ↦ ((nodeMap g.nodes).lookup id).isSome) := by
  induction found with
  | nil => rfl
  | cons x found ih =>
    unfold foundNodes at ih ⊢
    cases hnode : (nodeMap g.nodes).lookup x.1 with
    | none => simp [hnode, ih]
    | some node => simp [hnode, ih, (mem_of_lookup_nodeMap hnode).2]

theorem describes_entries {found : List (String × EdgeType)}
    (h : ∀ x ∈ found, ∃ u, Reaches near far g target u ∧ x ∈ neighbours near far g.edges u) :
    List.Forall₂ (Describes near far g target direction) (foundNodes g found)
      (found.filterMap (affected (nodeMap g.nodes) direction)) := by
  induction found with
  | nil => exact .nil
  | cons x found ih =>
    have hrest := ih (fun y hy ↦ h y (List.mem_cons_of_mem x hy))
    cases hnode : (nodeMap g.nodes).lookup x.1 with
    | none =>
      have haffected : affected (nodeMap g.nodes) direction x = none := by rw [affected, hnode, Option.map_none]
      simp only [foundNodes, List.filterMap_cons, hnode, haffected]
      exact hrest
    | some node =>
      have haffected : affected (nodeMap g.nodes) direction x =
          some ⟨node.kind, node.name, node.health, impactDescription x.2 direction⟩ := by
        rw [affected, hnode, Option.map_some]
      simp only [foundNodes, List.filterMap_cons, hnode, haffected]
      obtain ⟨u, hu, hx⟩ := h x List.mem_cons_self
      obtain ⟨e, he, rfl, rfl⟩ := mem_neighbours.mp hx
      exact .cons ⟨rfl, rfl, rfl, e, he, hu, (mem_of_lookup_nodeMap hnode).2.symm, rfl⟩ hrest

theorem exact_of_finds {found : List (String × EdgeType)} (h : Bfs.Finds (neighbours near far g.edges) target found) :
    Exact near far g target direction (foundNodes g found)
      (found.filterMap (affected (nodeMap g.nodes) direction)) := by
  obtain ⟨honce, hreachable, hsources, hclosest⟩ := h
  rw [step_neighbours] at hreachable hsources hclosest
  refine ⟨fun node hnode ↦ ?_, ?_, fun id ↦ ?_, ?_, describes_entries hsources⟩
  · obtain ⟨x, -, hlookup⟩ := List.mem_filterMap.mp hnode
    exact (mem_of_lookup_nodeMap hlookup).1
  · rw [map_id_foundNodes]
    exact honce.filter _
  · rw [map_id_foundNodes, List.mem_filter, lookup_nodeMap_isSome, hreachable, and_comm]
    rfl
  · rw [map_id_foundNodes]
    exact hclosest.filter _

/-- The blast radius ends, and is exactly what can be reached along and against the edges. -/
theorem computeBlastRadius_exact (g : Graph) (target : String) :
    ∃ result, computeBlastRadius (some g) target = some result ∧ (target = "" → result = {}) ∧
      (target ≠ "" → ∃ down up,
        Exact Edge.source Edge.target g target "downstream" down result.directlyAffected ∧
          Exact Edge.target Edge.source g target "upstream" up result.potentiallyAffected) := by
  by_cases hempty : target = ""
  · exact ⟨{}, if_pos hempty, fun _ ↦ rfl, fun h ↦ absurd hempty h⟩
  · obtain ⟨down, hdown⟩ := search_ends Edge.source Edge.target g.edges target
    obtain ⟨up, hup⟩ := search_ends Edge.target Edge.source g.edges target
    have hresult : computeBlastRadius (some g) target =
        some
          { directlyAffected := down.found.filterMap (affected (nodeMap g.nodes) "downstream")
            potentiallyAffected := up.found.filterMap (affected (nodeMap g.nodes) "upstream") } := by
      unfold computeBlastRadius
      dsimp only
      rw [if_neg hempty, children, hdown, parents, hup]
    exact ⟨_, hresult, fun h ↦ absurd h hempty, fun _ ↦ ⟨foundNodes g down.found, foundNodes g up.found,
      exact_of_finds (Bfs.finds_search hdown), exact_of_finds (Bfs.finds_search hup)⟩⟩

/-! ## By distance -/

def Lists (resources : List AffectedResource) (node : Node) : Prop :=
  ∃ r ∈ resources, r.kind = node.kind ∧ r.name = node.name

/-- The nodes one step away are the directly affected ones, and those farther away the potentially affected ones. -/
structure ByDistance (g : Graph) (target : String) (result : BlastResult) : Prop where
  directly : ∀ node ∈ g.nodes, node.id ≠ target →
    (Lists result.directlyAffected node ↔ Along Edge.source Edge.target g target node.id)
  transitively : ∀ node ∈ g.nodes, node.id ≠ target → (Lists result.potentiallyAffected node ↔
    Reaches Edge.source Edge.target g target node.id ∧ ¬Along Edge.source Edge.target g target node.id)

/-- A Deployment with its ReplicaSet and Pod. -/
def ownerChain : Graph where
  nodes :=
    [⟨"d", "Deployment", "web", "shop", .healthy, ""⟩, ⟨"r", "ReplicaSet", "web-1", "shop", .healthy, ""⟩,
      ⟨"p", "Pod", "web-1-a", "shop", .healthy, ""⟩]
  edges := [⟨"d", "r", .owner⟩, ⟨"r", "p", .owner⟩]

/-- The Pod is two steps from the Deployment, and directly affected. -/
theorem not_byDistance : ¬ ∀ (g : Graph) (target : String) (result : BlastResult), target ≠ "" →
    (g.nodes.map Node.id).Nodup → (g.nodes.map (fun node ↦ (node.kind, node.name))).Nodup →
    computeBlastRadius (some g) target = some result → ByDistance g target result := by
  intro h
  have hresult : computeBlastRadius (some ownerChain) "d" =
      some ⟨[⟨"ReplicaSet", "web-1", .healthy, "Owned resource — will fail with parent"⟩,
        ⟨"Pod", "web-1-a", .healthy, "Owned resource — will fail with parent"⟩], []⟩ := by
    decide
  have hby := h ownerChain "d" _ (by decide) (by decide) (by decide) hresult
  have halong := (hby.directly ⟨"p", "Pod", "web-1-a", "shop", .healthy, ""⟩ (by decide) (by decide)).mp
    ⟨_, List.mem_cons_of_mem _ List.mem_cons_self, rfl, rfl⟩
  revert halong
  unfold Along
  decide

end KubeCenter.Diagnostics
