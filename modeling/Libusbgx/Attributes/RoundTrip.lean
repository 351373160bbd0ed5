import Libusbgx.Attributes.Files

/-!
# Schemes of table-driven functions

A table-driven function is exported to a group and imported from it attribute by attribute.  The
value of an attribute comes back when its callbacks agree on what they return; the reader of boolean
nodes does not say that it has found one.
-/

namespace Libusbgx

open Prog Machine

/-! ## The function types -/

/-- The function types whose attributes are all in one table and can all be written. -/
inductive TableType where
  | midi | loopback | uac2
deriving DecidableEq, Repr

namespace TableType

/-- The table of a type. -/
def table : TableType → List Attr
  | midi => midiAttr
  | loopback => loopbackAttr
  | uac2 => uac2Attr

/-- The `export` of a type. -/
def exprt {κ : Type} (K : Kernel κ) : TableType → Members → On κ Func Members
  | midi => tableExport K midiAttr
  | loopback => loopbackLibconfigExport K
  | uac2 => tableExport K uac2Attr

/-- The `import` of a type. -/
def imprt {κ : Type} (K : Kernel κ) : TableType → Setting → On κ Func Unit
  | midi => tableImport K midiAttr
  | loopback => loopbackLibconfigImport K
  | uac2 => tableImport K uac2Attr

variable {t : TableType} {a : Attr}

lemma nodup_names (t : TableType) : (t.table.map Attr.name).Nodup := by
  cases t <;> decide

lemma name_ne_nil (h : a ∈ t.table) : a.name ≠ [] := by
  have key : ∀ t : TableType, ∀ a ∈ t.table, a.name ≠ [] := by
    intro t
    cases t <;> decide
  exact key t a h

lemma writable (h : a ∈ t.table) : a.ro = false := by
  have key : ∀ t : TableType, ∀ a ∈ t.table, a.ro = false := by
    intro t
    cases t <;> decide
  exact key t a h

lemma kind_cases (h : a ∈ t.table) : a.kind = .dec ∨ a.kind = .bool ∨ a.kind = .string := by
  have key : ∀ t : TableType, ∀ a ∈ t.table, a.kind = .dec ∨ a.kind = .bool ∨ a.kind = .string := by
    intro t
    cases t <;> decide
  exact key t a h

lemma kind_of_loopback (h : a ∈ loopbackAttr) : a.kind = .dec := by
  have key : ∀ a ∈ loopbackAttr, a.kind = .dec := by decide
  exact key a h

end TableType

/-! ## What is assumed and what is shown -/

/-- The file of the attribute in the directory holds the value. -/
def AttrHeld (d : Path) (T : Tree) (a : Attr) (v : AttrVal) : Prop :=
  ∃ c, T.get (d ++ [a.name]) = some (.file c) ∧ v.HeldBy c

/-- The files of a table hold the values, each of which has the type of its attribute. -/
def AttrsHeld (d : Path) (T : Tree) (table : List Attr) (vals : List AttrVal) : Prop :=
  List.Forall₂ (fun a v => a.kind.Takes v ∧ AttrHeld d T a v) table vals

/-- The attribute files of the function are there and can be read and written. -/
structure FilesUsable (M : Machine) (f : Func) (table : List Attr) (T : Tree) : Prop where
  clean : f.dir.Clean
  fits : ∀ a ∈ table, (f.path ++ [f.name, a.name]).Fits
  reads : ∀ a ∈ table, M.Grants (.read (f.path ++ [f.name, a.name]))
  writes : ∀ a ∈ table, ∀ data, M.Grants (.write (f.path ++ [f.name, a.name]) data)
  file : ∀ a ∈ table, ∃ c, T.get (f.dir ++ [a.name]) = some (.file c)

/-- No number is negative. -/
def NonNegative (vals : List AttrVal) : Prop :=
  ∀ v ∈ vals, ∀ n, v = .int n → 0 ≤ n

/-- The function `f` is exported, the function `f'` is made from the group, and its files hold the
values of `f` then. -/
def RoundTrips (t : TableType) (M M' : Machine) (w w' : World Fs) (f f' : Func)
    (vals : List AttrVal) : Prop :=
  ∃ root u u', t.exprt M.kernel [] (w, f) = (.ok root, (u, f)) ∧
    t.imprt M'.kernel (.group root) (w', f') = (.ok (), (u', f')) ∧
      AttrsHeld f'.dir u'.tree t.table vals

/-- The boolean attributes of the new function are those of the old one before the import. -/
def BoolsHeld (d : Path) (T : Tree) (table : List Attr) (vals : List AttrVal) : Prop :=
  ∀ av ∈ table.zip vals, av.1.kind = .bool → AttrHeld d T av.1 av.2

section Steps

variable {t : TableType} {M : Machine} {w : World Fs} {f : Func} {a : Attr} {v : AttrVal}
  {vals : List AttrVal} {root : Members}

lemma resolve_attrFile (hclean : f.dir.Clean) {name : CStr} (hname : name ≠ []) :
    (f.path ++ [f.name, name]).resolve = f.dir ++ [name] := by
  have hpath : f.path ++ [f.name, name] = f.dir ++ [name] := by
    rw [Func.dir, List.append_assoc]
    rfl
  rw [hpath, hclean.resolve_append]
  simp [hname]

lemma AttrsHeld.iff_zip {d : Path} {T : Tree} {table : List Attr} : AttrsHeld d T table vals ↔
    table.length = vals.length ∧
      ∀ av ∈ table.zip vals, av.1.kind.Takes av.2 ∧ AttrHeld d T av.1 av.2 := by
  rw [AttrsHeld, List.forall₂_iff_zip]
  exact and_congr_right fun _ => ⟨fun h av hav => h hav, fun h a v hav => h (a, v) hav⟩

lemma AttrsHeld.map_fst {d : Path} {T : Tree} {table : List Attr} (h : AttrsHeld d T table vals) :
    (table.zip vals).map Prod.fst = table :=
  List.map_fst_zip (AttrsHeld.iff_zip.mp h).1.le

/-- Reading an attribute. -/
lemma FilesUsable.get_ok {T : Tree} (h : FilesUsable M f t.table T) (ha : a ∈ t.table)
    (htakes : a.kind.Takes v) (hheld : AttrHeld f.dir w.tree a v) :
    ∃ w', getAttrVal M.kernel f a w = (.ok v, w') ∧ w'.tree = w.tree := by
  obtain ⟨c, hfile, hheld⟩ := hheld
  rw [← resolve_attrFile h.clean (TableType.name_ne_nil ha)] at hfile
  exact htakes.get_ok (h.fits a ha) (h.reads a ha) hfile hheld

/-- Writing an attribute. -/
lemma FilesUsable.set_ok {T : Tree} (h : FilesUsable M f t.table T) (ha : a ∈ t.table)
    (htakes : a.kind.Takes v) (hfile : ∃ c, w.tree.get (f.dir ++ [a.name]) = some (.file c)) :
    ∃ w', setAttrVal M.kernel f a v w = (.ok (), w') ∧
      w'.tree = w.tree.replace (f.dir ++ [a.name]) (.file v.rendered) := by
  obtain ⟨c, hfile⟩ := hfile
  have hresolve := resolve_attrFile h.clean (TableType.name_ne_nil ha)
  rw [← hresolve] at hfile ⊢
  rw [setAttrVal, htakes.set_eq]
  exact usbgWriteBuf_ok (h.fits a ha) (h.writes a ha _) hfile

/-- The nodes of the attributes. -/
def nodesOf (table : List Attr) (vals : List AttrVal) : Members :=
  (table.zip vals).map fun av => (av.1.name, av.2.node)

lemma AttrsHeld.map_name {d : Path} {T : Tree} {table : List Attr} (h : AttrsHeld d T table vals) :
    (nodesOf table vals).map Prod.fst = table.map Attr.name := by
  rw [nodesOf, List.map_map, ← congrArg (List.map Attr.name) h.map_fst, List.map_map]
  rfl

/-- Different attributes have different files. -/
lemma AttrsHeld.nodup_paths {d : Path} {T : Tree} {table : List Attr} (h : AttrsHeld d T table vals)
    (hnodup : (table.map Attr.name).Nodup) (d' : Path) :
    ((table.zip vals).map fun av : Attr × AttrVal => d' ++ [av.1.name]).Nodup := by
  rw [← h.map_fst, List.map_map] at hnodup
  refine List.Nodup.of_map (fun p : Path => p.getLastD []) ?_
  rw [List.map_map]
  convert hnodup using 2
  funext av
  simp

/-- A loop over a table as a loop over its attributes with their values. -/
lemma AttrsHeld.foldlM_eq {σ α : Type} {d : Path} {T : Tree} {table : List Attr}
    (h : AttrsHeld d T table vals) (round : α → Attr → Prog UsbgError σ α) (x : α) :
    table.foldlM round x = (table.zip vals).foldlM (fun x av => round x av.1) x := by
  rw [← congrArg (fun l => List.foldlM round x l) h.map_fst, List.foldlM_map]

lemma AttrsHeld.forEach_eq {σ : Type} {d : Path} {T : Tree} {table : List Attr}
    (h : AttrsHeld d T table vals) (round : Attr → Prog UsbgError σ Unit) :
    forEach round table = forEach (fun av => round av.1) (table.zip vals) := by
  rw [← congrArg (forEach round) h.map_fst, forEach_map]

/-! ## Export -/

/-- One round of the `export` of a type. -/
def TableType.exportRound {κ : Type} (K : Kernel κ) (f : Func) : TableType → Members → Attr → Io κ Members
  | .loopback, root, a => do
    let tmp ← usbgReadDec K f.path f.name a.name
    require (0 ≤ tmp) .invalidValue
    ofExcept (configSettingAdd root a.name (.int tmp))
  | _, root, a => exportAttr (getAttrVal K f) root a

lemma TableType.exprt_eq {κ : Type} (K : Kernel κ) (t : TableType) (root : Members) (w : World κ) (f : Func) :
    t.exprt K root (w, f) = io (t.table.foldlM (t.exportRound K f) root) (w, f) := by
  cases t <;> rfl

lemma TableType.exportRound_ok {T : Tree} (h : FilesUsable M f t.table T) (ha : a ∈ t.table)
    (hpos : t = .loopback → ∀ n, v = .int n → 0 ≤ n) (htakes : a.kind.Takes v)
    (hheld : AttrHeld f.dir w.tree a v) (hname : a.name ∉ root.map Prod.fst) :
    ∃ w', t.exportRound M.kernel f root a w = (.ok (root ++ [(a.name, v.node)]), w') ∧
      w'.tree = w.tree := by
  obtain ⟨w', hget, ht⟩ := h.get_ok ha htakes hheld
  refine ⟨w', ?_, ht⟩
  cases t with
  | loopback =>
    have hkind := TableType.kind_of_loopback ha
    obtain ⟨n, rfl⟩ : ∃ n, v = .int n := by
      rw [hkind] at htakes
      cases v <;> first | exact ⟨_, rfl⟩ | exact Bool.noConfusion htakes
    rw [getAttrVal, hkind, AttrKind.get, bind_eq_ok] at hget
    obtain ⟨m, u, hread, hpure⟩ := hget
    cases hpure
    rw [exportRound, bind_ok hread, require_of (hpos rfl n rfl), pure_bind, configSettingAdd_ok hname]
    rfl
  | midi | uac2 =>
    show exportAttr (getAttrVal M.kernel f) root a w = _
    rw [exportAttr, bind_ok hget]
    exact htakes.exprt_ok hname

/-- The export of a function whose files hold the values. -/
lemma TableType.exprt_ok (h : FilesUsable M f t.table w.tree) (hpos : t = .loopback → NonNegative vals)
    (hheld : AttrsHeld f.dir w.tree t.table vals) :
    ∃ w', t.exprt M.kernel [] (w, f) = (.ok (nodesOf t.table vals), (w', f)) := by
  have hzip := (AttrsHeld.iff_zip.mp hheld).2
  have hnodup : ((([] : Members) ++ nodesOf t.table vals).map Prod.fst).Nodup := by
    rw [List.nil_append, hheld.map_name]
    exact t.nodup_names
  have hround : ∀ av ∈ t.table.zip vals, ∀ root (u : World Fs), u.tree = w.tree →
      av.1.name ∉ root.map Prod.fst → ∃ u', t.exportRound M.kernel f root av.1 u =
        (.ok (root ++ [(av.1.name, av.2.node)]), u') ∧ u'.tree = w.tree := by
    intro av hav root u hu hfresh
    have hpos' : t = .loopback → ∀ n, av.2 = .int n → 0 ≤ n := fun ht =>
      hpos ht av.2 (List.of_mem_zip hav).2
    obtain ⟨u', hrun, ht⟩ := TableType.exportRound_ok h (List.of_mem_zip hav).1 hpos' (hzip av hav).1
      (hu ▸ (hzip av hav).2) hfresh
    exact ⟨u', hrun, ht.trans hu⟩
  obtain ⟨w', hrun, -⟩ := foldlM_nodes (I := fun u : World Fs => u.tree = w.tree) hnodup hround (s := w) rfl
  refine ⟨w', ?_⟩
  rw [TableType.exprt_eq, hheld.foldlM_eq]
  exact io_ok hrun

/-! ## Import -/

/-- One round of the `import` of a type. -/
def TableType.importRound {κ : Type} (K : Kernel κ) (f : Func) (root : Setting) : TableType → Attr → Io κ Unit
  | .loopback, a => do
    match root.getMember a.name with
    | none => pure ()
    | some node =>
      require (0 ≤ node.getInt) .invalidParam
      setAttrVal K f a (.int node.getInt)
  | _, a => do
    when (¬ a.ro) do
      match ← ofExcept (a.kind.imprt root a.name) with
      | none => pure ()
      | some val => setAttrVal K f a val

lemma TableType.imprt_eq {κ : Type} (K : Kernel κ) (t : TableType) (root : Setting) (w : World κ) (f : Func) :
    t.imprt K root (w, f) = io (forEach (t.importRound K f root) t.table) (w, f) := by
  cases t <;> rfl

/-- What a round of an import writes: nothing for a boolean. -/
def imported (av : Attr × AttrVal) : Option CStr :=
  if av.1.kind = .bool then none else some av.2.rendered

/-- A node is read as the value it was made for, but that of a boolean is read as missing. -/
lemma imprt_node {root : Setting} (hkinds : a.kind = .dec ∨ a.kind = .bool ∨ a.kind = .string)
    (htakes : a.kind.Takes v) (hnode : root.getMember a.name = some v.node) :
    a.kind.imprt root a.name = .ok (if a.kind = .bool then none else some v) := by
  rcases hkinds with hkind | hkind | hkind <;> rw [hkind] at htakes ⊢
  · cases v <;> first
      | exact Bool.noConfusion htakes
      | (rw [AttrKind.imprt, usbgGetConfigNodeInt, hnode]; rfl)
  · cases v <;> first
      | exact Bool.noConfusion htakes
      | (rw [AttrKind.imprt, usbgGetConfigNodeBool, hnode]; rfl)
  · cases v <;> first
      | exact Bool.noConfusion htakes
      | skip
    case string s =>
      obtain _ | s := s
      · exact Bool.noConfusion htakes
      · rw [AttrKind.imprt, usbgGetConfigNodeString, hnode]
        rfl

lemma TableType.importRound_ok {T : Tree} {node : Setting} (h : FilesUsable M f t.table T)
    (ha : a ∈ t.table) (hpos : t = .loopback → ∀ n, v = .int n → 0 ≤ n) (htakes : a.kind.Takes v)
    (hnode : node.getMember a.name = some v.node)
    (hfile : ∃ c, w.tree.get (f.dir ++ [a.name]) = some (.file c)) :
    ∃ w', t.importRound M.kernel f node a w = (.ok (), w') ∧
      w'.tree = writeRound (fun av : Attr × AttrVal => f.dir ++ [av.1.name]) imported w.tree (a, v) := by
  cases t with
  | loopback =>
    have hkind := TableType.kind_of_loopback ha
    obtain ⟨n, rfl⟩ : ∃ n, v = .int n := by
      rw [hkind] at htakes
      cases v <;> first | exact ⟨_, rfl⟩ | exact Bool.noConfusion htakes
    obtain ⟨w', hset, ht⟩ := h.set_ok ha htakes hfile
    refine ⟨w', ?_, ?_⟩
    · rw [importRound, hnode]
      dsimp only
      rw [AttrVal.node, Setting.getInt, require_of (hpos rfl n rfl), pure_bind, hset]
    · rw [ht, writeRound, imported, if_neg (by rw [hkind]; decide)]
  | midi | uac2 =>
    show ∃ w', when (¬ a.ro) (ofExcept (a.kind.imprt node a.name) >>= fun
      | none => pure ()
      | some val => setAttrVal M.kernel f a val) w = (.ok (), w') ∧ _
    rw [when_of (by rw [TableType.writable ha]; simp), imprt_node (TableType.kind_cases ha) htakes hnode, ofExcept_ok,
      Prog.pure_bind]
    by_cases hkind : a.kind = .bool
    · rw [if_pos hkind]
      refine ⟨w, rfl, ?_⟩
      rw [writeRound, imported, if_pos hkind]
    · obtain ⟨w', hset, ht⟩ := h.set_ok ha htakes hfile
      rw [if_neg hkind]
      refine ⟨w', hset, ?_⟩
      rw [ht, writeRound, imported, if_neg hkind]

lemma getMember_nodesOf {table : List Attr} (hnodup : ((nodesOf table vals).map Prod.fst).Nodup)
    (hav : (a, v) ∈ table.zip vals) : (Setting.group (nodesOf table vals)).getMember a.name = some v.node := by
  have hmem : (a.name, v.node) ∈ nodesOf table vals := List.mem_map.mpr ⟨(a, v), hav, rfl⟩
  rw [Setting.getMember, Setting.members, (find?_key_eq_some hnodup).mpr ⟨hmem, rfl⟩]
  rfl

/-- The import of the nodes of the values. -/
lemma TableType.imprt_ok (h : FilesUsable M f t.table w.tree) (hpos : t = .loopback → NonNegative vals)
    {d : Path} {T : Tree} (hheld : AttrsHeld d T t.table vals) :
    ∃ w', t.imprt M.kernel (.group (nodesOf t.table vals)) (w, f) = (.ok (), (w', f)) ∧
      Written (fun av : Attr × AttrVal => f.dir ++ [av.1.name]) imported (t.table.zip vals) w.tree w'.tree := by
  have hzip := (AttrsHeld.iff_zip.mp hheld).2
  have hnames : ((nodesOf t.table vals).map Prod.fst).Nodup := by
    rw [hheld.map_name]
    exact t.nodup_names
  have hpaths := hheld.nodup_paths t.nodup_names f.dir
  have hround : ∀ av ∈ t.table.zip vals, ∀ u : World Fs, True →
      (∃ c, u.tree.get (f.dir ++ [av.1.name]) = some (.file c)) →
      ∃ u', t.importRound M.kernel f (.group (nodesOf t.table vals)) av.1 u = (.ok (), u') ∧ True ∧
        u'.tree = writeRound (fun av : Attr × AttrVal => f.dir ++ [av.1.name]) imported u.tree av := by
    intro av hav u _ hfile
    have hpos' : t = .loopback → ∀ n, av.2 = .int n → 0 ≤ n := fun ht =>
      hpos ht av.2 (List.of_mem_zip hav).2
    obtain ⟨u', hrun, ht⟩ := TableType.importRound_ok h (List.of_mem_zip hav).1 hpos' (hzip av hav).1
      (getMember_nodesOf hnames hav) hfile
    exact ⟨u', hrun, trivial, ht⟩
  obtain ⟨w', hrun, -, hwritten⟩ := forEach_written (fun w : World Fs => w.tree) hpaths hround (s := w) trivial
    fun av hav => h.file av.1 (List.of_mem_zip hav).1
  refine ⟨w', ?_, hwritten⟩
  rw [TableType.imprt_eq, hheld.forEach_eq]
  exact io_ok hrun

/-! ## Round trips -/

/-- The written files hold the values, and so do the others when they held them before. -/
lemma AttrsHeld.of_written {d d' : Path} {T T₁ T₁' : Tree} {table : List Attr} (hheld : AttrsHeld d T table vals)
    (hkinds : ∀ a ∈ table, a.kind = .dec ∨ a.kind = .bool ∨ a.kind = .string)
    (hwritten : ∀ av ∈ table.zip vals,
      T₁'.get (d' ++ [av.1.name]) = ((imported av).map Node.file).or (T₁.get (d' ++ [av.1.name]))) :
    AttrsHeld d' T₁' table vals ↔ BoolsHeld d' T₁ table vals := by
  obtain ⟨hlen, hzip⟩ := AttrsHeld.iff_zip.mp hheld
  have hone : ∀ av ∈ table.zip vals,
      AttrHeld d' T₁' av.1 av.2 ↔ (av.1.kind = .bool → AttrHeld d' T₁ av.1 av.2) := by
    rintro ⟨a, v⟩ hav
    obtain ⟨htakes, c, hfile, hholds⟩ := hzip _ hav
    rw [AttrHeld, hwritten _ hav, imported]
    by_cases hkind : a.kind = .bool
    · rw [if_pos hkind]
      simp only [Option.map_none, Option.none_or, hkind, true_imp_iff]
      rfl
    · have htaken : AttrKind.dec.Takes v ∨ AttrKind.bool.Takes v ∨ AttrKind.string.Takes v := by
        rcases hkinds a (List.of_mem_zip hav).1 with hk | hk | hk <;> rw [hk] at htakes
        · exact .inl htakes
        · exact absurd hk hkind
        · exact .inr (.inr htakes)
      rw [if_neg hkind]
      refine iff_of_true ⟨v.rendered, rfl, (hholds.plain htaken).heldBy⟩ fun hk => absurd hk hkind
  rw [AttrsHeld.iff_zip, BoolsHeld]
  constructor
  · rintro ⟨-, hall⟩ av hav
    exact (hone av hav).mp (hall av hav).2
  · intro hbools
    exact ⟨hlen, fun av hav => ⟨(hzip av hav).1, (hone av hav).mpr (hbools av hav)⟩⟩

end Steps

section RoundTrips

variable {t : TableType} {M M' : Machine} {w w' : World Fs} {f f' : Func} {vals : List AttrVal}

lemma RoundTrips.boolsHeld (h : RoundTrips t M M' w w' f f' vals)
    (hheld : AttrsHeld f.dir w.tree t.table vals) (hpos : t = .loopback → NonNegative vals)
    (hfiles : FilesUsable M f t.table w.tree) (hfiles' : FilesUsable M' f' t.table w'.tree) :
    BoolsHeld f'.dir w'.tree t.table vals := by
  obtain ⟨u, hexport⟩ := TableType.exprt_ok hfiles hpos hheld
  obtain ⟨u', himport, hwritten⟩ := TableType.imprt_ok hfiles' hpos hheld
  obtain ⟨root, v, v', hexport', himport', hvals⟩ := h
  rw [hexport] at hexport'
  cases hexport'
  rw [himport] at himport'
  cases himport'
  exact (hheld.of_written (fun _ => TableType.kind_cases) hwritten.get).mp hvals

end RoundTrips

/-- A scheme gives back the values of the attributes exactly when the boolean ones need no import. -/
theorem roundTrips_iff (t : TableType) (M M' : Machine) (w w' : World Fs) (f f' : Func)
    (vals : List AttrVal) (hheld : AttrsHeld f.dir w.tree t.table vals)
    (hpos : t = .loopback → NonNegative vals) (hfiles : FilesUsable M f t.table w.tree)
    (hfiles' : FilesUsable M' f' t.table w'.tree) :
    RoundTrips t M M' w w' f f' vals ↔ BoolsHeld f'.dir w'.tree t.table vals := by
  refine ⟨fun h => h.boolsHeld hheld hpos hfiles hfiles', fun hbools => ?_⟩
  obtain ⟨u, hexport⟩ := TableType.exprt_ok hfiles hpos hheld
  obtain ⟨u', himport, hwritten⟩ := TableType.imprt_ok hfiles' hpos hheld
  exact ⟨_, u, u', hexport, himport, (hheld.of_written (fun _ => TableType.kind_cases) hwritten.get).mpr hbools⟩

/-! ## An example -/

section Example

variable {t : TableType} {T : Tree} {f : Func} {vals : List AttrVal}

/-- A willing kernel reads and writes every file. -/
lemma FilesUsable.of_willing (hclean : f.dir.Clean) (hfits : ∀ a ∈ t.table, (f.path ++ [f.name, a.name]).Fits)
    (hfile : ∀ a ∈ t.table, (T.get (f.dir ++ [a.name])).any Node.isFile = true) :
    FilesUsable willing f t.table T where
  clean := hclean
  fits := hfits
  reads _ _ _ := rfl
  writes _ _ _ _ := rfl
  file a ha := exists_file_of_any (hfile a ha)

/-- Files with the values as they are rendered hold them. -/
lemma AttrsHeld.of_rendered {d : Path} {table : List Attr} (hlen : table.length = vals.length)
    (htakes : ∀ av ∈ table.zip vals, av.1.kind.Takes av.2)
    (hfile : ∀ av ∈ table.zip vals, T.get (d ++ [av.1.name]) = some (.file av.2.rendered))
    (hplain : ∀ v ∈ vals, v.Plain) : AttrsHeld d T table vals :=
  AttrsHeld.iff_zip.mpr ⟨hlen, fun av hav =>
    ⟨htakes av hav, _, hfile av hav, (hplain av.2 (List.of_mem_zip hav).2).heldBy⟩⟩

/-- The directory of the functions of a gadget. -/
def functionsPath : Path := ["/c".toList, gadgetsDir, "g".toList, functionsDir]

/-- A function of the gadget. -/
def tableFunc (type : FunctionType) (name : String) : Func :=
  { Func.allocated 0 functionsPath type [] with name := name.toList }

/-- The directories of functions, with files that hold the values. -/
def tableEntries (t : TableType) (funcs : List (String × List AttrVal)) : List (Path × Node CStr CStr) :=
  funcs.flatMap fun fv =>
    (functionsPath ++ [fv.1.toList], .dir true) ::
      (t.table.zip fv.2).map fun av =>
        (functionsPath ++ [fv.1.toList] ++ [av.1.name], .file av.2.rendered)

@[inherit_doc tableEntries]
def tableTree (t : TableType) (funcs : List (String × List AttrVal)) : Tree :=
  FileTree.addAll .empty (tableEntries t funcs)

lemma get_tableTree (funcs : List (String × List AttrVal)) (q : Path) :
    (tableTree t funcs).get q = ((tableEntries t funcs).find? (·.1 = q)).map Prod.snd := by
  rw [tableTree, FileTree.get_addAll]
  rfl

/-- The attributes of a loopback function. -/
def loopbackVals : List AttrVal := [.int 4096, .int 32]

/-- The attributes of an audio function; the playback volume may be muted or not. -/
def uac2Vals (mute : Bool) : List AttrVal :=
  [.int 3, .int 64000, .int 2, .int 3, .int 48000, .int 2, .int 0, .int 0, .string (some "async".toList),
    .int 2, .int 5, .bool mute, .bool true, .int (-25600), .int 0, .int 256, .bool true, .bool true,
    .int (-25600), .int 0, .int 256, .string (some "Source/Sink".toList)]

/-- Two loopback functions. -/
def loopbackFuncs : List (String × List AttrVal) :=
  [("Loopback.0", loopbackVals), ("Loopback.1", [.int 0, .int 0])]

/-- Two audio functions, of which one has the control. -/
def uac2Funcs : List (String × List AttrVal) := [("uac2.0", uac2Vals true), ("uac2.1", uac2Vals false)]

/-- The files of the functions can be used. -/
lemma tableTree_usable {type : FunctionType} {funcs : List (String × List AttrVal)}
    (h : ∀ fv ∈ funcs, (tableFunc type fv.1).dir.Clean ∧ ∀ a ∈ t.table,
      ((tableFunc type fv.1).path ++ [(tableFunc type fv.1).name, a.name]).Fits ∧
        ((tableEntries t funcs).find? (·.1 = (tableFunc type fv.1).dir ++ [a.name])).any (·.2.isFile) = true) :
    ∀ fv ∈ funcs, FilesUsable willing (tableFunc type fv.1) t.table (tableTree t funcs) := by
  intro fv hfv
  obtain ⟨hclean, hall⟩ := h fv hfv
  refine FilesUsable.of_willing hclean (fun a ha => (hall a ha).1) fun a ha => ?_
  rw [get_tableTree, Option.any_map]
  exact (hall a ha).2

lemma loopbackFuncs_usable : ∀ fv ∈ loopbackFuncs,
    FilesUsable willing (tableFunc .loopback fv.1) loopbackAttr (tableTree .loopback loopbackFuncs) :=
  tableTree_usable (t := .loopback) (by decide +kernel)

lemma uac2Funcs_usable : ∀ fv ∈ uac2Funcs,
    FilesUsable willing (tableFunc .uac2 fv.1) uac2Attr (tableTree .uac2 uac2Funcs) :=
  tableTree_usable (t := .uac2) (by decide +kernel)

/-- The files of the functions hold their values. -/
lemma tableTree_held {type : FunctionType} {funcs : List (String × List AttrVal)} (fv : String × List AttrVal)
    (hlen : t.table.length = fv.2.length) (hplain : ∀ v ∈ fv.2, v.Plain)
    (h : ∀ av ∈ t.table.zip fv.2, av.1.kind.Takes av.2 ∧
      (tableEntries t funcs).find? (·.1 = (tableFunc type fv.1).dir ++ [av.1.name]) =
        some ((tableFunc type fv.1).dir ++ [av.1.name], .file av.2.rendered)) :
    AttrsHeld (tableFunc type fv.1).dir (tableTree t funcs) t.table fv.2 := by
  refine AttrsHeld.of_rendered hlen (fun av hav => (h av hav).1) (fun av hav => ?_) hplain
  rw [get_tableTree, (h av hav).2]
  rfl

lemma loopback_held :
    AttrsHeld (tableFunc .loopback "Loopback.0").dir (tableTree .loopback loopbackFuncs) loopbackAttr loopbackVals :=
  tableTree_held (t := .loopback) ("Loopback.0", loopbackVals) (by decide) (by decide +kernel)
    (by decide +kernel)

lemma uac2_held :
    AttrsHeld (tableFunc .uac2 "uac2.0").dir (tableTree .uac2 uac2Funcs) uac2Attr (uac2Vals true) :=
  tableTree_held (t := .uac2) ("uac2.0", uac2Vals true) (by decide) (by decide +kernel)
    (by decide +kernel)

/-- A loopback function comes back. -/
theorem roundTrips_loopback :
    RoundTrips .loopback willing willing (worldOf (tableTree .loopback loopbackFuncs))
      (worldOf (tableTree .loopback loopbackFuncs)) (tableFunc .loopback "Loopback.0")
      (tableFunc .loopback "Loopback.1") loopbackVals := by
  refine (roundTrips_iff .loopback willing willing _ _ _ _ _ loopback_held (fun _ => ?_)
    (loopbackFuncs_usable ("Loopback.0", loopbackVals) (by simp [loopbackFuncs]))
    (loopbackFuncs_usable ("Loopback.1", [.int 0, .int 0]) (by simp [loopbackFuncs]))).mpr ?_
  · rintro v hv n rfl
    have hcases : n = 4096 ∨ n = 32 := by simpa [loopbackVals] using hv
    omega
  · intro av hav hkind
    have hdec := TableType.kind_of_loopback (List.of_mem_zip hav).1
    rw [hkind] at hdec
    cases hdec

/-- An audio function comes back without its mute control. -/
theorem roundTrips_fails :
    AttrsHeld (tableFunc .uac2 "uac2.0").dir (worldOf (tableTree .uac2 uac2Funcs)).tree uac2Attr (uac2Vals true) ∧
      FilesUsable willing (tableFunc .uac2 "uac2.0") uac2Attr (worldOf (tableTree .uac2 uac2Funcs)).tree ∧
      FilesUsable willing (tableFunc .uac2 "uac2.1") uac2Attr (worldOf (tableTree .uac2 uac2Funcs)).tree ∧
      ¬ RoundTrips .uac2 willing willing (worldOf (tableTree .uac2 uac2Funcs))
        (worldOf (tableTree .uac2 uac2Funcs)) (tableFunc .uac2 "uac2.0") (tableFunc .uac2 "uac2.1")
        (uac2Vals true) := by
  have husable := uac2Funcs_usable ("uac2.0", uac2Vals true) (by simp [uac2Funcs])
  have husable' := uac2Funcs_usable ("uac2.1", uac2Vals false) (by simp [uac2Funcs])
  refine ⟨uac2_held, husable, husable', fun h => ?_⟩
  have hbools := h.boolsHeld uac2_held (fun ht => by cases ht) husable husable'
  have hmem : (Attr.rw "p_mute_present" .bool, AttrVal.bool true) ∈ uac2Attr.zip (uac2Vals true) := by
    decide
  have hfile : (tableTree .uac2 uac2Funcs).get ((tableFunc .uac2 "uac2.1").dir ++ ["p_mute_present".toList]) =
      some (.file (AttrVal.bool false).rendered) := by
    rw [get_tableTree]
    decide +kernel
  obtain ⟨c, hget, hheld⟩ := hbools _ hmem rfl
  cases hfile.symm.trans hget
  have hfalse : (AttrVal.bool false).HeldBy (AttrVal.bool false).rendered := AttrVal.Plain.heldBy trivial
  cases hheld.unique .bool hfalse rfl rfl

end Example

end Libusbgx
