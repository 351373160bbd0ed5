import Libusbgx.Configfs.Made

/-!
# What keeps a directory from being removed

In a tree as configfs has it the user makes things at few places below a gadget, and links lead to few others.
So there are few things that a directory may hold, and few links that may lead to it.
-/

namespace Libusbgx

open Prog Machine

variable {M : Machine} {cfg x c f : CStr} {T : Tree} {d q r t : Path} {n : Node CStr CStr} {text : CStr}

/-! ## Nodes -/

lemma LinkInFunction.cases (h : LinkInFunction d r t) :
    ∃ f s s', r = functionsDir :: f :: s ∧ s ≠ [] ∧ Composed f ∧ t = d ++ functionsDir :: f :: s' ∧ s' ≠ [] := by
  obtain ⟨hin, ⟨s', rfl⟩, hne⟩ := h
  rcases r with - | ⟨y, - | ⟨f, - | ⟨z, r⟩⟩⟩
  · exact hin.elim
  · exact hin.elim
  · exact hin.elim
  · obtain ⟨rfl, hcomposed⟩ := hin
    refine ⟨f, z :: r, s', rfl, List.cons_ne_nil z r, hcomposed, by simp, ?_⟩
    rintro rfl
    exact hne (List.append_nil _)

/-- Where a link is, and where it leads. -/
lemma LinkPlace.cases (h : LinkPlace d r t) :
    (∃ y, r = [osDescDir, y] ∧ t.dropLast = d ++ [configsDir]) ∨
    (∃ c y, r = [configsDir, c, y] ∧ y ≠ stringsDir ∧ t.dropLast = d ++ [functionsDir]) ∨
    ∃ f s s', r = functionsDir :: f :: s ∧ s ≠ [] ∧ Composed f ∧ t = d ++ functionsDir :: f :: s' ∧ s' ≠ [] := by
  rcases r with - | ⟨y, - | ⟨f, - | ⟨z, - | ⟨z', r⟩⟩⟩⟩
  · exact .inr (.inr (LinkInFunction.cases h))
  · exact .inr (.inr (LinkInFunction.cases h))
  · obtain ⟨rfl, ht⟩ := h
    exact .inl ⟨f, rfl, ht⟩
  · rcases h with ⟨rfl, hne, ht⟩ | h
    · exact .inr (.inl ⟨f, z, rfl, hne, ht⟩)
    · exact .inr (.inr h.cases)
  · exact .inr (.inr (LinkInFunction.cases h))

lemma UserPlace.cases (h : UserPlace r) :
    r = [] ∨ (∃ y z, r = [y, z] ∧ (y = stringsDir ∨ y = configsDir ∨ y = functionsDir)) ∨
      ∃ c z, r = [configsDir, c, stringsDir, z] := by
  rcases r with - | ⟨y, - | ⟨z, - | ⟨y', - | ⟨z', - | ⟨_, _⟩⟩⟩⟩⟩
  · exact .inl rfl
  · exact h.elim
  · exact .inr (.inl ⟨y, z, rfl, h⟩)
  · exact h.elim
  · obtain ⟨rfl, rfl⟩ := h
    exact .inr (.inr ⟨z, z', rfl⟩)
  · exact h.elim

lemma InFunction.cases (h : InFunction r) : ∃ f s, r = functionsDir :: f :: s ∧ s ≠ [] ∧ Composed f := by
  rcases r with - | ⟨y, - | ⟨f, - | ⟨z, r⟩⟩⟩
  · exact h.elim
  · exact h.elim
  · exact h.elim
  · exact ⟨f, z :: r, congrArg (· :: _) h.1, List.cons_ne_nil z r, h.2⟩

namespace Shaped

/-- What is below a gadget. -/
lemma gadgetNode (h : Shaped cfg T) (hn : T.get ([cfg, gadgetsDir, x] ++ r) = some n) :
    GadgetNode [cfg, gadgetsDir, x] r n := by
  have hok := h.nodes _ _ hn
  rwa [List.cons_append, List.cons_append, List.cons_append, NodeOk, if_pos ⟨rfl, rfl⟩] at hok

/-- Links to something below a gadget are below the gadget. -/
lemma link (h : Shaped cfg T) (hl : T.get q = some (.link text ([cfg, gadgetsDir, x] ++ t))) :
    ∃ r, q = [cfg, gadgetsDir, x] ++ r ∧ LinkPlace [cfg, gadgetsDir, x] r ([cfg, gadgetsDir, x] ++ t) := by
  have hpre : [cfg, gadgetsDir] <+: [cfg, gadgetsDir, x] ++ t := ⟨x :: t, rfl⟩
  have hok := h.nodes _ _ hl
  rcases q with - | ⟨a, - | ⟨b, - | ⟨y, r⟩⟩⟩
  · exact absurd hpre (hok _ rfl)
  · exact absurd hpre (hok _ rfl)
  · exact absurd hpre (hok _ rfl)
  · rw [NodeOk] at hok
    split at hok
    · next hab =>
      obtain ⟨rfl, rfl⟩ := hab
      obtain ⟨hplace, -⟩ := hok
      -- every link below a gadget leads to something below the same gadget
      have hsame : [a, gadgetsDir, y] <+: [a, gadgetsDir, x] ++ t := by
        rcases hplace.cases with ⟨_, _, ht⟩ | ⟨_, _, _, _, ht⟩ | ⟨_, _, _, _, _, _, ht, _⟩
        · exact (List.prefix_append _ [configsDir]).trans (ht ▸ List.dropLast_prefix _)
        · exact (List.prefix_append _ [functionsDir]).trans (ht ▸ List.dropLast_prefix _)
        · exact ⟨_, ht.symm⟩
      obtain ⟨s, hs⟩ := hsame
      obtain rfl : y = x := by
        simp only [List.cons_append, List.nil_append, List.cons.injEq] at hs
        exact hs.2.2.1
      exact ⟨r, rfl, hplace⟩
    · exact absurd hpre (hok _ rfl)

/-! ## Links -/

/-- Links to a configuration, or to something in it, are OS descriptor links. -/
lemma link_config (h : Shaped cfg T)
    (hl : T.get q = some (.link text ([cfg, gadgetsDir, x] ++ configsDir :: t))) :
    ∃ y, q = [cfg, gadgetsDir, x, osDescDir, y] ∧ t.length = 1 := by
  obtain ⟨r, rfl, hplace⟩ := h.link hl
  rcases hplace.cases with ⟨y, rfl, ht⟩ | ⟨c, y, rfl, -, ht⟩ | ⟨f, s, s', rfl, -, -, ht, -⟩
  · have hlen := congrArg List.length ht
    simp at hlen
    exact ⟨y, rfl, by omega⟩
  · have hlen := congrArg List.length ht
    simp at hlen
    obtain ⟨c', rfl⟩ := List.length_eq_one_iff.mp (by omega : t.length = 1)
    simp at ht
    exact absurd ht.symm functionsDir_ne_configsDir
  · simp at ht
    exact absurd ht.1.symm functionsDir_ne_configsDir

/-- Links to a function, or to something in it, are bindings or links in the function. -/
lemma link_function (h : Shaped cfg T)
    (hl : T.get q = some (.link text ([cfg, gadgetsDir, x] ++ functionsDir :: f :: t))) :
    (t = [] ∧ ∃ c y, q = [cfg, gadgetsDir, x, configsDir, c, y]) ∨
      t ≠ [] ∧ Composed f ∧ ∃ s, q = [cfg, gadgetsDir, x, functionsDir, f] ++ s ∧ s ≠ [] := by
  obtain ⟨r, rfl, hplace⟩ := h.link hl
  rcases hplace.cases with ⟨y, rfl, ht⟩ | ⟨c, y, rfl, -, ht⟩ | ⟨f', s, s', rfl, hs, hcomposed, ht, hs'⟩
  · obtain rfl : t = [] := by simpa using congrArg List.length ht
    simp at ht
  · exact .inl ⟨by simpa using congrArg List.length ht, c, y, rfl⟩
  · obtain ⟨rfl, rfl⟩ : f = f' ∧ t = s' := by simpa using ht
    exact .inr ⟨hs', hcomposed, s, rfl, hs⟩

/-- No link leads to a gadget or to its strings. -/
lemma not_link (h : Shaped cfg T) (ht : ∀ y s, t = y :: s → y ≠ configsDir ∧ y ≠ functionsDir) :
    T.get q ≠ some (.link text ([cfg, gadgetsDir, x] ++ t)) := by
  intro hl
  obtain ⟨r, rfl, hplace⟩ := h.link hl
  rcases t with - | ⟨y, t⟩
  · rcases hplace.cases with ⟨_, _, ht⟩ | ⟨_, _, _, _, ht⟩ | ⟨_, _, _, _, _, _, ht, _⟩ <;> simp at ht
  · obtain ⟨hne, hne'⟩ := ht y t rfl
    rcases hplace.cases with ⟨_, _, ht⟩ | ⟨_, _, _, _, ht⟩ | ⟨_, _, _, _, _, _, ht, _⟩
    · rcases t with - | ⟨z, t⟩
      · simp at ht
      · simp at ht
        exact hne ht.1
    · rcases t with - | ⟨z, t⟩
      · simp at ht
      · simp at ht
        exact hne' ht.1
    · simp at ht
      exact hne' ht.1

/-! ## Things that the user has made -/

/-- Where the user makes directories there is nothing else. -/
lemma get_userPlace (h : Shaped cfg T) (hr : UserPlace r) (hn : T.get ([cfg, gadgetsDir, x] ++ r) = some n) :
    n = .dir true := by
  have hok := h.gadgetNode hn
  rcases n with made | content | ⟨text, t⟩
  · cases made with
    | true => rfl
    | false => exact absurd hr hok
  · exact absurd hr hok
  · exact absurd hr hok.2

/-- What the user has made below a gadget. -/
lemma made_cases (h : Shaped cfg T) (hn : T.made ([cfg, gadgetsDir, x] ++ r) = some n) :
    UserPlace r ∨ (∃ f s, r = functionsDir :: f :: s ∧ s ≠ [] ∧ Composed f) ∨ (∃ y, r = [osDescDir, y]) ∨
      ∃ c y, r = [configsDir, c, y] := by
  obtain ⟨hn, hmade⟩ := FileTree.made_eq_some.mp hn
  have hok := h.gadgetNode hn
  rcases n with made | content | ⟨text, t⟩
  · rw [Node.made_dir] at hmade
    rw [hmade] at hok
    exact hok.imp_right fun hin => .inl hin.cases
  · cases hmade
  · rcases hok.1.cases with ⟨y, hr, -⟩ | ⟨c, y, hr, -⟩ | ⟨f, s, -, hr, hs, hcomposed, -⟩
    · exact .inr (.inr (.inl ⟨y, hr⟩))
    · exact .inr (.inr (.inr ⟨c, y, hr⟩))
    · exact .inr (.inl ⟨f, s, hr, hs, hcomposed⟩)

/-- In a configuration there are links and language directories. -/
lemma made_config (h : Shaped cfg T) (hr : r ≠ []) (hn : T.made ([cfg, gadgetsDir, x, configsDir, c] ++ r) ≠ none) :
    (∃ y, r = [y]) ∨ ∃ l, r = [stringsDir, l] := by
  obtain ⟨n, hn⟩ := Option.ne_none_iff_exists'.mp hn
  rcases h.made_cases (r := configsDir :: c :: r) hn with hplace | ⟨f, s, hs, -⟩ | ⟨y, hy⟩ | ⟨c', y, hy⟩
  · rcases hplace.cases with hnil | ⟨y, z, hy, -⟩ | ⟨c', z, hz⟩
    · cases hnil
    · obtain ⟨-, -, rfl⟩ : configsDir = y ∧ c = z ∧ r = [] := by simpa using hy
      exact absurd rfl hr
    · obtain ⟨-, rfl⟩ : c = c' ∧ r = [stringsDir, z] := by simpa using hz
      exact .inr ⟨z, rfl⟩
  · exact absurd (List.cons.inj hs).1.symm functionsDir_ne_configsDir
  · exact absurd (List.cons.inj hy).1 configsDir_ne_osDescDir
  · obtain ⟨-, rfl⟩ : c = c' ∧ r = [y] := by simpa using hy
    exact .inl ⟨y, rfl⟩

/-- In a language directory of a configuration there is nothing. -/
lemma not_madeBelow_configLang (h : Shaped cfg T) (l : CStr) :
    ¬ T.MadeBelow [cfg, gadgetsDir, x, configsDir, c, stringsDir, l] := by
  rw [FileTree.madeBelow_iff_made]
  rintro ⟨q, ⟨r, rfl⟩, hne, hmade⟩
  rcases h.made_config (r := stringsDir :: l :: r) (by simp) hmade with ⟨y, hy⟩ | ⟨l', hl⟩
  · simp at hy
  · obtain ⟨-, rfl⟩ : l = l' ∧ r = [] := by simpa using hl
    exact hne (List.append_nil _)

/-- Nor is there a link to it. -/
lemma not_pinned_configLang (h : Shaped cfg T) (l : CStr) :
    ¬ T.Pinned [cfg, gadgetsDir, x, configsDir, c, stringsDir, l] := by
  rw [FileTree.pinned_iff]
  rintro ⟨q, text, hl⟩
  obtain ⟨y, -, hlen⟩ := h.link_config (t := [c, stringsDir, l]) hl
  simp at hlen

/-- A language directory of a configuration can be removed. -/
lemma rmdir_configLang (h : Shaped cfg T) {l : CStr} (hl : T.get [cfg, gadgetsDir, x, configsDir, c, stringsDir, l] = some n) :
    rmdir T [cfg, gadgetsDir, x, configsDir, c, stringsDir, l] =
      .ok (T.prune [cfg, gadgetsDir, x, configsDir, c, stringsDir, l]) := by
  have hdir := h.get_userPlace (r := [configsDir, c, stringsDir, l]) ⟨rfl, rfl⟩ hl
  rw [hdir] at hl
  exact rmdir_eq_ok.mpr ⟨hl, h.not_madeBelow_configLang l, h.not_pinned_configLang l, rfl⟩

/-- A configuration without links, language directories, and the OS descriptors can be removed. -/
lemma rmdir_config (h : Shaped cfg T) (hc : T.get [cfg, gadgetsDir, x, configsDir, c] = some n)
    (hlinks : ∀ y, T.made [cfg, gadgetsDir, x, configsDir, c, y] = none)
    (hlangs : ∀ l, T.get [cfg, gadgetsDir, x, configsDir, c, stringsDir, l] = none)
    (hos : ∀ y text, T.get [cfg, gadgetsDir, x, osDescDir, y] ≠ some (.link text [cfg, gadgetsDir, x, configsDir, c])) :
    rmdir T [cfg, gadgetsDir, x, configsDir, c] = .ok (T.prune [cfg, gadgetsDir, x, configsDir, c]) := by
  have hdir := h.get_userPlace (r := [configsDir, c]) (.inr (.inl rfl)) hc
  rw [hdir] at hc
  refine rmdir_eq_ok.mpr ⟨hc, ?_, ?_, rfl⟩
  · rw [FileTree.madeBelow_iff_made]
    rintro ⟨q, ⟨r, rfl⟩, hne, hmade⟩
    have hr : r ≠ [] := fun hr => hne (by rw [hr, List.append_nil])
    rcases h.made_config hr hmade with ⟨y, rfl⟩ | ⟨l, rfl⟩
    · exact hmade (hlinks y)
    · exact hmade (FileTree.made_of_get_none (hlangs l))
  · rw [FileTree.pinned_iff]
    rintro ⟨q, text, hl⟩
    obtain ⟨y, rfl, -⟩ := h.link_config (t := [c]) hl
    exact hos y text hl

end Shaped

end Libusbgx
