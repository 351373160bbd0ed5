import Libusbgx.Attributes.Files

/-!
# The attributes of network functions

The kernel calls a file of a network function `class`, the table of the library calls it `class_`,
after the member of the structure.  So neither the setter nor the getter of the structure succeeds.
-/

namespace Libusbgx

open Prog Machine

/-- The attribute files of a network function. -/
def netFiles : List CStr :=
  ["dev_addr", "host_addr", "ifname", "qmult", "class", "subclass", "protocol"].map String.toList

/-- The directory of the function holds the attribute files and nothing else. -/
structure NetDirectory (T : Tree) (f : Func) : Prop where
  clean : f.dir.Clean
  file : ∀ name ∈ netFiles, ∃ content, T.get (f.dir ++ [name]) = some (.file content)
  only : ∀ name ∉ netFiles, T.get (f.dir ++ [name]) = none

/-- The getters of single attributes, in the order of the table. -/
def netGetters {κ : Type} (K : Kernel κ) : List (Func → AttrVal → Io κ AttrVal) :=
  [usbgFNetGetDevAddr K, usbgFNetGetHostAddr K, usbgFNetGetIfname K, usbgFNetGetQmult K, usbgFNetGetClass K,
    usbgFNetGetSubclass K, usbgFNetGetProtocol K]

/-- The values can be set, are read back, and are what the getters of single attributes store.  The
name of the interface is not set. -/
def NetAttrsAgree (M : Machine) (f : Func) (vals : List AttrVal) (w : World Fs) : Prop :=
  ∃ w₁ w₂ vals', usbgFNetSetAttrs M.kernel f vals w = (.ok (), w₁) ∧
    usbgFNetGetAttrs M.kernel f w₁ = (.ok vals', w₂) ∧
    List.Forall₂ (fun a vv => a = netIfname ∨ vv.1 = vv.2) netAttr (vals.zip vals') ∧
    List.Forall₂ (fun get val => ∀ var, ∃ w₃, get f var w₂ = (.ok val, w₃)) (netGetters M.kernel) vals'

section

variable {M : Machine} {w : World Fs} {f : Func} {a : Attr} {val var : AttrVal}

lemma NetDirectory.class_ {T : Tree} (h : NetDirectory T f) :
    T.get (f.path ++ [f.name, netClass.name]).resolve = none := by
  have hpath : f.path ++ [f.name, netClass.name] = f.dir ++ [netClass.name] := by
    simp [Func.dir]
  rw [hpath, h.clean.resolve_append]
  exact h.only netClass.name (by decide)

/-- A file that is not there cannot be written, and is not made by writing others. -/
lemma not_usbgFNetSetAttrs (h : w.tree.get (f.path ++ [f.name, netClass.name]).resolve = none)
    (vals : List AttrVal) :
    Ends (fun _ _ => False) (fun _ _ => True) True (usbgFNetSetAttrs M.kernel f vals w) := by
  refine Ends.ite (fun hlen => ?_) fun _ => trivial
  -- the loop gets past the class only by writing its file
  have hround : ∀ (done : List (Attr × AttrVal)) av u,
      (u.tree.get (f.path ++ [f.name, netClass.name]).resolve = none ∧ ∀ av ∈ done, av.1 ≠ netClass) →
      Ends (fun _ u' => u'.tree.get (f.path ++ [f.name, netClass.name]).resolve = none ∧
          ∀ av' ∈ done ++ [av], av'.1 ≠ netClass)
        (fun _ _ => True) True (when (¬ av.1.ro) (setAttrVal M.kernel f av.1 av.2) u) := by
    rintro done av u ⟨hu, hdone⟩
    have hextend : av.1 ≠ netClass → ∀ av' ∈ done ++ [av], av'.1 ≠ netClass := by
      intro hav av' hmem
      rcases List.mem_append.mp hmem with hmem | hmem
      · exact hdone av' hmem
      · rwa [List.mem_singleton.mp hmem]
    refine Ends.when (fun _ => ends_set ?_ (fun _ _ _ => trivial) fun _ => trivial) fun hro => ⟨hu, hextend ?_⟩
    · rintro data u' ⟨content, hfile⟩ ht
      have hne : (f.path ++ [f.name, netClass.name]).resolve ≠ (f.path ++ [f.name, av.1.name]).resolve :=
        fun heq => by cases (heq ▸ hu).symm.trans hfile
      refine ⟨?_, hextend fun heq => hne (by rw [heq])⟩
      rw [ht, FileTree.get_replace, if_neg hne, hu]
    · rintro heq
      rw [heq] at hro
      exact hro (by decide)
  have hzip : (netClass, vals.getD 4 (.int 0)) ∈ netAttr.zip vals := by
    have hlen' : vals.length = 7 := hlen
    rw [List.mem_iff_getElem]
    refine ⟨4, by rw [List.length_zip, hlen']; decide, ?_⟩
    rw [List.getElem_zip, List.getD_eq_getElem?_getD, List.getElem?_eq_getElem (by omega)]
    rfl
  refine (Ends.forEachDone (fun done u => u.tree.get (f.path ++ [f.name, netClass.name]).resolve = none ∧
    ∀ av ∈ done, av.1 ≠ netClass) (fun done av u _ hu => hround done av u hu) ⟨h, by simp⟩).mono ?_
    fun _ _ _ => trivial
  exact fun _ _ hall => hall.2 _ hzip rfl

/-- A table with an attribute whose file is not there cannot be read. -/
lemma not_getTable {table : List Attr} (ha : a ∈ table)
    (h : w.tree.get (f.path ++ [f.name, a.name]).resolve = none) :
    Ends (fun _ _ => False) (fun _ _ => True) True (getTable (getAttrVal M.kernel f) table w) := by
  induction table generalizing w with
  | nil => cases ha
  | cons b table ih =>
    refine Ends.bind (get_ends.mono_undef (fun _ _ hget => hget) (fun _ _ _ => trivial) fun _ => trivial) ?_
    rintro val w' ⟨ht, content, hfile⟩
    rcases List.mem_cons.mp ha with rfl | ha
    · cases h.symm.trans hfile
    · rw [← ht] at h
      refine Ends.bind (ih ha h) fun _ _ hfalse => hfalse.elim

/-- A getter with a union of its own leaves the variable of its caller as it was. -/
lemma netGetCopy_eq {w' : World Fs} (h : netGetCopy M.kernel a f var w = (.ok val, w')) : val = var := by
  obtain ⟨_, _, -, hpure⟩ := bind_eq_ok.mp h
  cases hpure
  rfl

end

/-- Neither the setter nor the getter of the structure succeeds, and the getters of the addresses
store nothing. -/
theorem netAttrs_disagree (M : Machine) (f : Func) (w : World Fs) (h : NetDirectory w.tree f) :
    (∀ vals w', usbgFNetSetAttrs M.kernel f vals w ≠ (.ok (), w')) ∧
      (∀ vals w', usbgFNetGetAttrs M.kernel f w ≠ (.ok vals, w')) ∧
      (∀ get ∈ [usbgFNetGetDevAddr M.kernel, usbgFNetGetHostAddr M.kernel], ∀ var val w',
        get f var w = (.ok val, w') → val = var) ∧
      ∀ vals, ¬ NetAttrsAgree M f vals w := by
  have hset : ∀ vals w', usbgFNetSetAttrs M.kernel f vals w ≠ (.ok (), w') := by
    intro vals w' heq
    have hends := not_usbgFNetSetAttrs (M := M) h.class_ vals
    rw [heq] at hends
    exact hends
  refine ⟨hset, ?_, ?_, ?_⟩
  · intro vals w' heq
    have hends : Ends _ _ _ (getTable (getAttrVal M.kernel f) netAttr w) := not_getTable (a := netClass) (by decide) h.class_
    rw [usbgFNetGetAttrs] at heq
    rw [heq] at hends
    exact hends
  · intro get hget var val w' hrun
    rcases List.mem_cons.mp hget with rfl | hget
    · exact netGetCopy_eq hrun
    · rw [List.mem_singleton.mp hget] at hrun
      exact netGetCopy_eq hrun
  · rintro vals ⟨w₁, -, -, hrun, -⟩
    exact hset vals w₁ hrun

/-! ## An example -/

/-- A network function. -/
def netFunc : Func := plainFunc .ecm

/-- The files of the network function. -/
def netEntries : List (Path × Node CStr CStr) :=
  (netFunc.dir, .dir true) :: netFiles.map fun name => (netFunc.dir ++ [name], .file ['0', '\n'])

/-- Its directory. -/
def netWorld : World Fs := worldOf (FileTree.addAll .empty netEntries)

/-- Two addresses, no interface name, and numbers. -/
def netVals : List AttrVal :=
  [.etherAddr [1, 2, 3, 4, 5, 6], .etherAddr [6, 5, 4, 3, 2, 1], .string none, .int 5, .int 2, .int 6, .int 0]

lemma netWorld_directory : NetDirectory netWorld.tree netFunc := by
  have hget : ∀ q, netWorld.tree.get q = (netEntries.find? (·.1 = q)).map Prod.snd := by
    intro q
    rw [netWorld, tree_worldOf, FileTree.get_addAll]
    rfl
  refine ⟨by decide, fun name hname => ⟨['0', '\n'], ?_⟩, fun name hname => ?_⟩
  · rw [hget]
    revert name
    decide +kernel
  · rw [hget, Option.map_eq_none_iff, List.find?_eq_none]
    intro e he
    rw [netEntries, List.mem_cons, List.mem_map] at he
    rcases he with rfl | ⟨name', hname', rfl⟩
    · simp
    · have hne : name' ≠ name := fun heq => hname (heq ▸ hname')
      simpa using hne

/-- The functions do not agree in the directory of the network function. -/
theorem netAttrs_disagree_netFunc : ¬ NetAttrsAgree willing netFunc netVals netWorld :=
  (netAttrs_disagree willing netFunc netWorld netWorld_directory).2.2.2 netVals

/-- The values cannot be set. -/
theorem netAttrs_fail : ¬ NetAttrsAgree willing netFunc netVals netWorld := by
  rintro ⟨w₁, -, -, hrun, -⟩
  have hends := not_usbgFNetSetAttrs (M := willing) netWorld_directory.class_ netVals
  rw [hrun] at hends
  exact hends

end Libusbgx
