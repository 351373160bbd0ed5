import Libusbgx.Base.Keyed
import Mathlib.Data.List.Infix

/-!
# File trees

A finite tree of directories, files and symbolic links, kept as the list of its nodes with
their paths.  Two trees are the same when they hold the same nodes at the same paths, so
everything that is said about the operations is said about `FileTree.get`.

A directory may have been made by the user or by the system.  So were all links made by the
user; `Node.Made` holds for what the user has made.
-/

namespace Libusbgx

variable {ν β : Type}

/-- A node of a file tree: `ν` is the type of names, `β` that of contents. -/
inductive Node (ν β : Type) where
  | dir (made : Bool)
  | file (content : β)
  /-- a symbolic link: the text that `readlink` gives, and the directory it was made for -/
  | link (text : β) (target : List ν)
deriving DecidableEq, Repr

namespace Node

/-- The user has made the node. -/
def made : Node ν β → Bool
  | dir made => made
  | file _ => false
  | link _ _ => true

/-- The node is a directory. -/
def isDir : Node ν β → Bool
  | dir _ => true
  | _ => false

/-- The node is a file. -/
def isFile : Node ν β → Bool
  | file _ => true
  | _ => false

/-- The node is a link. -/
def isLink : Node ν β → Bool
  | link _ _ => true
  | _ => false

/-- The text of a link. -/
def text? : Node ν β → Option β
  | link text _ => some text
  | _ => none

/-- What a link was made for. -/
def target? : Node ν β → Option (List ν)
  | link _ target => some target
  | _ => none

@[simp] lemma made_dir (b : Bool) : (dir b : Node ν β).made = b := rfl

@[simp] lemma made_file (content : β) : (file content : Node ν β).made = false := rfl

@[simp] lemma made_link (text : β) (target : List ν) : (link text target : Node ν β).made = true :=
  rfl

lemma isDir_iff {n : Node ν β} : n.isDir = true ↔ ∃ b, n = dir b := by
  cases n <;> simp [isDir]

lemma isLink_iff {n : Node ν β} : n.isLink = true ↔ ∃ text target, n = link text target := by
  cases n <;> simp [isLink]

lemma target?_eq_some {n : Node ν β} {p : List ν} :
    n.target? = some p ↔ ∃ text, n = link text p := by
  cases n <;> simp [target?]

end Node

variable [DecidableEq ν]

/-- A file tree: no two nodes have the same path. -/
structure FileTree (ν β : Type) where
  entries : List (List ν × Node ν β)
  nodup : KeysNodup Prod.fst entries

namespace FileTree

/-- The tree without nodes. -/
def empty : FileTree ν β := ⟨[], List.nodup_nil⟩

variable (T : FileTree ν β) {p q : List ν} {n : Node ν β}

/-- The node at a path. -/
def get (p : List ν) : Option (Node ν β) := (T.entries.find? (·.1 = p)).map Prod.snd

/-- The two trees hold the same nodes. -/
def Same (T T' : FileTree ν β) : Prop := ∀ p, T.get p = T'.get p

/-- Some node has the property. -/
def Any (P : List ν → Node ν β → Prop) : Prop := ∃ e ∈ T.entries, P e.1 e.2

instance (P : List ν → Node ν β → Prop) [∀ p n, Decidable (P p n)] : Decidable (T.Any P) :=
  inferInstanceAs (Decidable (∃ e ∈ T.entries, P e.1 e.2))

/-- There is a directory at the path. -/
def IsDir (p : List ν) : Prop := (T.get p).any Node.isDir = true

instance (p : List ν) : Decidable (T.IsDir p) := inferInstanceAs (Decidable (_ = true))

/-- The user has made something below the path. -/
def MadeBelow (p : List ν) : Prop := T.Any fun q n => p <+: q ∧ q ≠ p ∧ n.made

instance (p : List ν) : Decidable (T.MadeBelow p) :=
  inferInstanceAs (Decidable (T.Any fun q n => p <+: q ∧ q ≠ p ∧ n.made))

/-- There is a link to the path. -/
def Pinned (p : List ν) : Prop := T.Any fun _ n => n.target? = some p

instance (p : List ν) : Decidable (T.Pinned p) :=
  inferInstanceAs (Decidable (T.Any fun _ n => n.target? = some p))

/-- What the user has made at a path. -/
def made (p : List ν) : Option (Node ν β) := (T.get p).filter Node.made

/-- The names in a directory, each with the node that has it. -/
def children (p : List ν) : List (ν × Node ν β) :=
  T.entries.filterMap fun e =>
    match e.1.getLast? with
    | some name => if e.1.dropLast = p then some (name, e.2) else none
    | none => none

/-- Add a node unless there is one at its path. -/
def add (p : List ν) (n : Node ν β) : FileTree ν β :=
  if h : ∃ e ∈ T.entries, e.1 = p then T
  else { entries := (p, n) :: T.entries
         nodup := T.nodup.cons fun e he hp => h ⟨e, he, hp⟩ }

/-- Add nodes unless there are nodes at their paths; the first of two with the same path
counts. -/
def addAll (l : List (List ν × Node ν β)) : FileTree ν β := l.foldl (fun T e => T.add e.1 e.2) T

/-- Keep the nodes whose paths have the property. -/
def keep (P : List ν → Bool) : FileTree ν β where
  entries := T.entries.filter fun e => P e.1
  nodup := T.nodup.filter _

/-- Replace the node at a path. -/
def replace (p : List ν) (n : Node ν β) : FileTree ν β where
  entries := T.entries.map fun e => if e.1 = p then (p, n) else e
  nodup := T.nodup.map fun e => by by_cases h : e.1 = p <;> simp [h]

/-- Take away what is at a path and below it. -/
def prune (p : List ν) : FileTree ν β := T.keep fun q => ¬ p <+: q

/-- Take away what is at a path. -/
def erase (p : List ν) : FileTree ν β := T.keep fun q => q ≠ p

variable {T} {T' T'' : FileTree ν β}

/-! ### Nodes -/

lemma fst_of_find?_entries {e : List ν × Node ν β} (h : T.entries.find? (·.1 = p) = some e) :
    e.1 = p := by
  simpa using List.find?_some h

lemma get_eq_some : T.get p = some n ↔ (p, n) ∈ T.entries := by
  constructor
  · intro h
    obtain ⟨e, he, rfl⟩ := Option.map_eq_some_iff.mp h
    have := fst_of_find?_entries he
    subst this
    exact find?_key_mem he
  · intro h
    rw [get, (find?_key_eq_some T.nodup).mpr ⟨h, rfl⟩]
    rfl

lemma get_eq_none : T.get p = none ↔ ∀ n, (p, n) ∉ T.entries := by
  rw [Option.eq_none_iff_forall_not_mem]
  exact forall_congr' fun n => not_congr get_eq_some

lemma any_iff {P : List ν → Node ν β → Prop} : T.Any P ↔ ∃ p n, T.get p = some n ∧ P p n := by
  constructor
  · rintro ⟨⟨p, n⟩, he, h⟩
    exact ⟨p, n, get_eq_some.mpr he, h⟩
  · rintro ⟨p, n, hget, h⟩
    exact ⟨(p, n), get_eq_some.mp hget, h⟩

lemma isDir_iff : T.IsDir p ↔ ∃ b, T.get p = some (.dir b) := by
  rw [IsDir, Option.any_eq_true]
  constructor
  · rintro ⟨n, hn, hd⟩
    obtain ⟨b, rfl⟩ := Node.isDir_iff.mp hd
    exact ⟨b, hn⟩
  · rintro ⟨b, hb⟩
    exact ⟨_, hb, rfl⟩

lemma madeBelow_iff :
    T.MadeBelow p ↔ ∃ q n, T.get q = some n ∧ p <+: q ∧ q ≠ p ∧ n.made = true := any_iff

lemma made_eq_some : T.made p = some n ↔ T.get p = some n ∧ n.made = true := by
  rw [made, Option.filter_eq_some_iff]

lemma made_eq_none : T.made p = none ↔ ∀ n, T.get p = some n → n.made = false := by
  rw [made, Option.filter_eq_none_iff]
  simp

lemma made_congr (h : T'.get p = T.get p) : T'.made p = T.made p := by
  rw [made, made, h]

lemma made_of_get_none (h : T.get p = none) : T.made p = none := by
  rw [made, h]
  rfl

lemma madeBelow_iff_made : T.MadeBelow p ↔ ∃ q, p <+: q ∧ q ≠ p ∧ T.made q ≠ none := by
  rw [madeBelow_iff]
  constructor
  · rintro ⟨q, n, hn, hq, hne, hmade⟩
    exact ⟨q, hq, hne, by rw [made_eq_some.mpr ⟨hn, hmade⟩]; simp⟩
  · rintro ⟨q, hq, hne, hmade⟩
    obtain ⟨n, hn⟩ := Option.ne_none_iff_exists'.mp hmade
    obtain ⟨hn, hmade⟩ := made_eq_some.mp hn
    exact ⟨q, n, hn, hq, hne, hmade⟩

lemma pinned_iff : T.Pinned p ↔ ∃ q text, T.get q = some (.link text p) := by
  rw [Pinned, any_iff]
  constructor
  · rintro ⟨q, n, hget, h⟩
    obtain ⟨text, rfl⟩ := Node.target?_eq_some.mp h
    exact ⟨q, text, hget⟩
  · rintro ⟨q, text, hget⟩
    exact ⟨q, _, hget, rfl⟩

lemma mem_children {name : ν} : (name, n) ∈ T.children p ↔ T.get (p ++ [name]) = some n := by
  rw [children, List.mem_filterMap, get_eq_some]
  constructor
  · rintro ⟨⟨q, n'⟩, he, h⟩
    cases hq : q.getLast? with
    | none => simp [hq] at h
    | some x =>
      simp only [hq] at h
      split at h
      · next hp =>
        obtain ⟨rfl, rfl⟩ := Prod.mk.inj (Option.some.inj h)
        rw [← hp, List.dropLast_append_getLast? x hq]
        exact he
      · cases h
  · intro he
    exact ⟨_, he, by simp⟩

lemma nodup_children : ((T.children p).map Prod.fst).Nodup := by
  have hmap : (T.children p).map Prod.fst = (T.entries.map Prod.fst).filterMap fun q =>
      q.getLast?.bind fun name => if q.dropLast = p then some name else none := by
    rw [children, List.map_filterMap, List.filterMap_map]
    refine List.filterMap_congr fun e _ => ?_
    cases he : e.1.getLast? with
    | none => simp [he]
    | some name => by_cases hp : e.1.dropLast = p <;> simp [he, hp]
  rw [hmap]
  refine List.Nodup.filterMap (fun q q' name hq hq' => ?_) T.nodup
  have hpath : ∀ q : List ν, (name ∈ q.getLast?.bind fun name =>
      if q.dropLast = p then some name else none) → q = p ++ [name] := by
    intro q hq
    obtain ⟨x, hx, hif⟩ := Option.bind_eq_some_iff.mp hq
    split at hif
    · next hp =>
      obtain rfl := Option.some.inj hif
      rw [← hp, List.dropLast_append_getLast? x hx]
    · cases hif
  rw [hpath q hq, hpath q' hq']

/-! ### Operations -/

lemma get_add (p q : List ν) (n : Node ν β) :
    (T.add p n).get q = (T.get q).or (if p = q then some n else none) := by
  by_cases h : ∃ e ∈ T.entries, e.1 = p
  · rw [add, dif_pos h]
    obtain ⟨⟨p, n'⟩, he, rfl⟩ := h
    by_cases hq : p = q
    · subst hq
      rw [get_eq_some.mpr he]
      rfl
    · rw [if_neg hq, Option.or_none]
  · rw [add, dif_neg h, get, find?_key_cons]
    by_cases hq : p = q
    · subst hq
      have : T.get p = none := get_eq_none.mpr fun n' hn' => h ⟨_, hn', rfl⟩
      rw [if_pos rfl, if_pos rfl, this]
      rfl
    · rw [if_neg hq, if_neg hq, Option.or_none]
      rfl

lemma get_addAll (l : List (List ν × Node ν β)) (q : List ν) :
    (T.addAll l).get q = (T.get q).or ((l.find? (·.1 = q)).map Prod.snd) := by
  induction l generalizing T with
  | nil => simp [addAll]
  | cons e l ih =>
    have hstep : T.addAll (e :: l) = (T.add e.1 e.2).addAll l := rfl
    rw [hstep, ih, get_add, find?_key_cons]
    by_cases hq : e.1 = q
    · rw [if_pos hq, if_pos hq]
      cases T.get q <;> rfl
    · rw [if_neg hq, if_neg hq, Option.or_none]

lemma get_keep (P : List ν → Bool) (q : List ν) :
    (T.keep P).get q = if P q then T.get q else none := by
  ext n
  rw [get_eq_some]
  show (q, n) ∈ T.entries.filter (fun e => P e.1) ↔ _
  rw [List.mem_filter]
  by_cases h : P q
  · rw [if_pos h, get_eq_some]
    exact and_iff_left h
  · rw [if_neg h]
    simp [h]

lemma get_prune (p q : List ν) : (T.prune p).get q = if p <+: q then none else T.get q := by
  rw [prune, get_keep]
  by_cases h : p <+: q <;> simp [h]

lemma get_erase (p q : List ν) : (T.erase p).get q = if q = p then none else T.get q := by
  rw [erase, get_keep]
  by_cases h : q = p <;> simp [h]

lemma get_replace (p q : List ν) (n : Node ν β) :
    (T.replace p n).get q = if q = p then (T.get q).map fun _ => n else T.get q := by
  rw [get, replace, find?_key_map (fun e => by by_cases h : e.1 = p <;> simp [h])]
  by_cases hq : q = p
  · subst hq
    rw [if_pos rfl, get, Option.map_map, Option.map_map]
    refine Option.map_congr fun e he => ?_
    simp [fst_of_find?_entries he]
  · rw [if_neg hq, get, Option.map_map]
    refine Option.map_congr fun e he => ?_
    have : e.1 ≠ p := fun h => hq ((fst_of_find?_entries he).symm.trans h)
    simp [this]

end FileTree

end Libusbgx
