import Mathlib.Data.List.Nodup

/-!
Doubly linked lists of nodes that are known by their addresses. No address is in a list twice, and a
new node gets an address that no other node has had.
-/

structure Node (ι : Type) where
  address : Nat
  content : ι

structure LinkedNodes (ι : Type) where
  nodes : List (Node ι)
  next : Nat
  nodup_addresses : (nodes.map Node.address).Nodup
  address_lt : ∀ node ∈ nodes, node.address < next

namespace LinkedNodes

variable {ι : Type}

def empty : LinkedNodes ι where
  nodes := []
  next := 0
  nodup_addresses := List.nodup_nil
  address_lt := by simp

def addresses (l : LinkedNodes ι) : List Nat :=
  l.nodes.map Node.address

theorem next_notMem (l : LinkedNodes ι) : l.next ∉ l.addresses := by
  intro h
  rcases List.mem_map.mp h with ⟨node, hmem, heq⟩
  have := l.address_lt node hmem
  omega

def tail? (l : LinkedNodes ι) : Option (Node ι) :=
  l.nodes.getLast?

def beforeTail? (l : LinkedNodes ι) : Option (Node ι) :=
  l.nodes.dropLast.getLast?

def insertBehind (node : Node ι) (address : Nat) : List (Node ι) → List (Node ι)
  | [] => [node]
  | n :: nodes =>
    if n.address = address then n :: node :: nodes else n :: insertBehind node address nodes

def insertAfter (node : Node ι) (anchor : Option Nat) (nodes : List (Node ι)) : List (Node ι) :=
  match anchor with
  | none => node :: nodes
  | some address => insertBehind node address nodes

theorem insertBehind_perm (node : Node ι) (address : Nat) (nodes : List (Node ι))
    : (insertBehind node address nodes).Perm (node :: nodes) := by
  induction nodes with
  | nil => rfl
  | cons n nodes ih =>
    unfold insertBehind
    split
    . apply List.Perm.swap
    . apply (ih.cons n).trans (List.Perm.swap node n nodes)

theorem insertAfter_perm (node : Node ι) (anchor : Option Nat) (nodes : List (Node ι))
    : (insertAfter node anchor nodes).Perm (node :: nodes) := by
  cases anchor with
  | none => rfl
  | some address => apply insertBehind_perm

theorem insertBehind_append {node n : Node ι} {pre post : List (Node ι)}
    (hpre : n.address ∉ pre.map Node.address)
    : insertBehind node n.address (pre ++ n :: post) = pre ++ n :: node :: post := by
  induction pre with
  | nil => simp [insertBehind]
  | cons m pre ih =>
    rw [List.map_cons, List.mem_cons, not_or] at hpre
    rw [List.cons_append, insertBehind, if_neg (Ne.symm hpre.left), ih hpre.right]
    rfl

theorem insertAfter_getLast? {node : Node ι} {pre post : List (Node ι)}
    (hnodup : ((pre ++ post).map Node.address).Nodup)
    : insertAfter node (pre.getLast?.map Node.address) (pre ++ post) = pre ++ node :: post := by
  cases hlast : pre.getLast? with
  | none =>
    rw [List.getLast?_eq_none_iff] at hlast
    subst hlast
    rfl
  | some n =>
    rcases List.getLast?_eq_some_iff.mp hlast with ⟨init, hinit⟩
    subst hinit
    rw [List.append_assoc, List.map_append] at hnodup
    have hnew : n.address ∉ init.map Node.address := by
      intro hmem
      apply (List.nodup_append.mp hnodup).right.right _ hmem n.address _ rfl
      simp
    simp only [List.append_assoc, List.singleton_append, Option.map_some, insertAfter]
    apply insertBehind_append hnew

def insert (l : LinkedNodes ι) (node : Node ι) (anchor : Option Nat) : Option (LinkedNodes ι) :=
  if h : node.address ∈ l.addresses then
    none
  else
    some {
      nodes := insertAfter node anchor l.nodes
      next := max l.next (node.address + 1)
      nodup_addresses := by
        rw [((insertAfter_perm node anchor l.nodes).map Node.address).nodup_iff]
        apply List.nodup_cons.mpr ⟨h, l.nodup_addresses⟩
      address_lt := by
        intro n hn
        rw [(insertAfter_perm node anchor l.nodes).mem_iff, List.mem_cons] at hn
        rcases hn with heq | hmem
        . rw [heq]
          omega
        . have := l.address_lt n hmem
          omega
    }

def remove (l : LinkedNodes ι) (address : Nat) : LinkedNodes ι where
  nodes := l.nodes.filter (fun n => n.address ≠ address)
  next := l.next
  nodup_addresses := l.nodup_addresses.sublist (List.filter_sublist.map Node.address)
  address_lt := fun n hn => l.address_lt n (List.mem_of_mem_filter hn)

def allocate (l : LinkedNodes ι) (content : ι) : Node ι × LinkedNodes ι :=
  ( { address := l.next, content }
  , { l with next := l.next + 1, address_lt := fun n hn => Nat.lt_succ_of_lt (l.address_lt n hn) } )

def append (l : LinkedNodes ι) (content : ι) : LinkedNodes ι where
  nodes := l.nodes ++ [{ address := l.next, content }]
  next := l.next + 1
  nodup_addresses := by
    rw [List.map_append, List.map_singleton, ← List.concat_eq_append, List.nodup_concat]
    exact ⟨l.next_notMem, l.nodup_addresses⟩
  address_lt := by
    intro n hn
    rw [List.mem_append, List.mem_singleton] at hn
    rcases hn with hmem | heq
    . have := l.address_lt n hmem
      omega
    . rw [heq]
      apply Nat.lt_succ_self

theorem map_address_modify (nodes : List (Node ι)) (address : Nat) (f : ι → ι)
    : (nodes.map fun n =>
        if n.address = address then { n with content := f n.content } else n).map Node.address
        = nodes.map Node.address := by
  rw [List.map_map]
  apply List.map_congr_left
  intro n _
  dsimp only [Function.comp]
  split <;> rfl

def modify (l : LinkedNodes ι) (address : Nat) (f : ι → ι) : LinkedNodes ι where
  nodes := l.nodes.map fun n => if n.address = address then { n with content := f n.content } else n
  next := l.next
  nodup_addresses := by
    rw [map_address_modify]
    apply l.nodup_addresses
  address_lt := by
    intro n hn
    rcases List.mem_map.mp hn with ⟨m, hmem, rfl⟩
    have := l.address_lt m hmem
    split <;> apply this

theorem insert_eq_some {l : LinkedNodes ι} {node : Node ι} (hnew : node.address ∉ l.addresses)
    (anchor : Option Nat)
    : ∃ l', l.insert node anchor = some l' ∧ l'.nodes = insertAfter node anchor l.nodes
        ∧ l'.next = max l.next (node.address + 1) := by
  refine ⟨_, dif_neg hnew, rfl, rfl⟩

theorem remove_append (l : LinkedNodes ι) (content : ι)
    : ((l.append content).remove l.next).nodes = l.nodes := by
  have hkept : l.nodes.filter (fun n => n.address ≠ l.next) = l.nodes := by
    rw [List.filter_eq_self]
    intro n hn
    have := l.address_lt n hn
    rw [decide_eq_true_iff]
    omega
  simp only [remove, append, List.filter_append, hkept]
  simp

theorem mem_remove_addresses {l : LinkedNodes ι} {address a : Nat}
    : a ∈ (l.remove address).addresses ↔ a ∈ l.addresses ∧ a ≠ address := by
  unfold addresses remove
  simp only [List.mem_map, List.mem_filter, decide_eq_true_eq]
  constructor
  . rintro ⟨n, ⟨hmem, hne⟩, rfl⟩
    exact ⟨⟨n, hmem, rfl⟩, hne⟩
  . rintro ⟨⟨n, hmem, rfl⟩, hne⟩
    exact ⟨n, ⟨hmem, hne⟩, rfl⟩

theorem mem_addresses_appendAll {l : LinkedNodes ι} {address : Nat} (h : address ∈ l.addresses)
    (contents : List ι) : address ∈ (contents.foldl append l).addresses := by
  induction contents generalizing l with
  | nil => apply h
  | cons content contents ih =>
    apply ih
    unfold addresses append at *
    rw [List.map_append, List.mem_append]
    exact .inl h

theorem notMem_of_nodes_eq {l : LinkedNodes ι} {node : Node ι} {pre post : List (Node ι)}
    (h : l.nodes = pre ++ node :: post)
    : node.address ∉ pre.map Node.address ∧ node.address ∉ post.map Node.address := by
  have hnodup := l.nodup_addresses
  rw [h, List.map_append, List.map_cons, List.nodup_middle, List.nodup_cons, List.mem_append,
    not_or] at hnodup
  apply hnodup.left

theorem remove_eq {l : LinkedNodes ι} {node : Node ι} {pre post : List (Node ι)}
    (h : l.nodes = pre ++ node :: post) : (l.remove node.address).nodes = pre ++ post := by
  have ⟨hpre, hpost⟩ := notMem_of_nodes_eq h
  have hkept : ∀ ns : List (Node ι), node.address ∉ ns.map Node.address
      → ns.filter (fun n => n.address ≠ node.address) = ns := by
    intro ns hns
    rw [List.filter_eq_self]
    intro n hn
    rw [decide_eq_true_iff]
    intro heq
    apply hns
    rw [← heq]
    apply List.mem_map_of_mem hn
  dsimp only [remove]
  rw [h, List.filter_append, List.filter_cons, hkept pre hpre, hkept post hpost]
  simp

theorem modify_eq {l : LinkedNodes ι} {node : Node ι} {pre post : List (Node ι)}
    (h : l.nodes = pre ++ node :: post) (f : ι → ι)
    : (l.modify node.address f).nodes
        = pre ++ { node with content := f node.content } :: post := by
  have ⟨hpre, hpost⟩ := notMem_of_nodes_eq h
  have hkept : ∀ ns : List (Node ι), node.address ∉ ns.map Node.address
      → (ns.map fun n => if n.address = node.address then { n with content := f n.content } else n)
          = ns := by
    intro ns hns
    have hid : ∀ n ∈ ns,
        (if n.address = node.address then { n with content := f n.content } else n) = id n := by
      intro n hn
      apply if_neg
      intro heq
      apply hns
      rw [← heq]
      apply List.mem_map_of_mem hn
    rw [List.map_congr_left hid, List.map_id]
  dsimp only [modify]
  rw [h, List.map_append, List.map_cons, hkept pre hpre, hkept post hpost]
  simp

end LinkedNodes
