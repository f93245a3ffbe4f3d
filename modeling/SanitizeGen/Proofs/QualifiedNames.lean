import SanitizeGen.Proofs.NamespaceText
import SanitizeGen.Proofs.ResolvedTarget

/-!
# Qualified names

The path of an item holds the names of its modules and its own name, with double colons between them
(`Namespace.qualify_text`). No name has a colon, so the path tells all of them
(`Namespace.qualify_inj`), and no two structs of a crate have functions for the same path
(`Tagged.receiver_eq_iff`).
-/

namespace SanitizeGen

open Text

theorem Ident.text_inj {i j : Ident} : i.text = j.text ↔ i = j := by
  refine ⟨fun h => ?_, fun h => h ▸ rfl⟩
  have hi : take? (i.text.toList ++ []) = some (i, []) := take?_text_append nofun
  have hj : take? (j.text.toList ++ []) = some (j, []) := take?_text_append nofun
  rw [← h, hi] at hj
  exact (Prod.mk.inj (Option.some.inj hj)).1

namespace Namespace

variable {ns ns' : Namespace} {i j : Ident}

/-- The path of an item is the text of a module in its place. -/
theorem qualify_text (ns : Namespace) (i : Ident) :
    ns.qualify i.text = "::".intercalate ((ns.segments ++ [i]).map Ident.text) := by
  obtain ⟨segments⟩ := ns
  rw [List.map_append, List.map_singleton]
  rcases segments with _ | ⟨k, ks⟩
  · exact String.intercalate_singleton.symm
  · rw [String.intercalate_append_of_ne_nil (by simp) (by simp), String.intercalate_singleton]
    rfl

theorem splitPath_qualify (ns : Namespace) (i : Ident) :
    splitPath (ns.qualify i.text).toList = (ns.segments ++ [i]).map fun k => k.text.toList := by
  obtain ⟨k, ks, hks⟩ : ∃ k ks, ns.segments ++ [i] = k :: ks :=
    List.exists_cons_of_ne_nil (List.append_ne_nil_of_right_ne_nil _ (List.cons_ne_nil i []))
  have hcolon : ∀ q ∈ (k :: ks).map fun k => k.text.toList, ':' ∉ q := by
    intro q hq
    obtain ⟨l, -, rfl⟩ := List.mem_map.1 hq
    exact Ident.not_mem_text rfl (by decide)
  rw [qualify_text, hks, String.toList_intercalate, List.map_map]
  exact splitPath_intercalate hcolon

theorem qualify_inj : ns.qualify i.text = ns'.qualify j.text ↔ ns = ns' ∧ i = j := by
  constructor
  · intro h
    -- the parts of the path are the texts of its names
    have hsplit := congrArg (fun s : String => splitPath s.toList) h
    simp only [splitPath_qualify] at hsplit
    have htext : Function.Injective fun k : Ident => k.text.toList := fun k l hkl =>
      Ident.text_inj.1 (String.toList_inj.1 hkl)
    obtain ⟨hsegments, hlast⟩ := List.append_inj' (htext.list_map hsplit) rfl
    obtain ⟨segments⟩ := ns
    obtain ⟨segments'⟩ := ns'
    exact ⟨congrArg mk hsegments, List.singleton_inj.1 hlast⟩
  · rintro ⟨rfl, rfl⟩
    rfl

end Namespace

namespace Tagged

variable {d d' : Tagged} {t t' : Target}

theorem receiver_of_resolve (h : d.resolve = .ok t) : t.receiver =
    "::".intercalate ("crate" :: (d.ns.segments ++ [d.item.name]).map Ident.text) := by
  obtain ⟨fields, -, hpath, -⟩ := exists_of_resolve h
  rw [String.intercalate_cons_of_ne_nil (by simp), ← Namespace.qualify_text, Target.receiver, hpath,
    path]
  rfl

/-- Functions are generated for the same path only if they are for the same struct. -/
theorem receiver_eq_iff (h : d.resolve = .ok t) (h' : d'.resolve = .ok t') :
    t.receiver = t'.receiver ↔ d.ns = d'.ns ∧ d.item.name = d'.item.name := by
  obtain ⟨fields, -, hpath, -⟩ := exists_of_resolve h
  obtain ⟨fields', -, hpath', -⟩ := exists_of_resolve h'
  rw [Target.receiver, Target.receiver, String.append_right_inj, hpath, hpath']
  exact Namespace.qualify_inj

end Tagged

/-- Paths tell namespaces and identifiers apart. The target of a struct has the name of the struct
without a raw mark, and generated code reaches it by the names of its modules and its own, from the
root of the crate on. -/
theorem qualify_identifies :
    (∀ (ns ns' : Namespace) (i j : Ident),
      ns.qualify i.text = ns'.qualify j.text ↔ ns = ns' ∧ i = j) ∧
    ∀ (d : Tagged) (t : Target), d.resolve = .ok t → t.typeName = d.item.name.name ∧
      t.receiver = "::".intercalate ("crate" :: (d.ns.segments ++ [d.item.name]).map Ident.text) :=
  ⟨fun _ _ _ _ => Namespace.qualify_inj, fun _ _ h =>
    ⟨Tagged.typeName_of_resolve h, Tagged.receiver_of_resolve h⟩⟩

/-- `struct r#Match;` in a module. -/
def rawMatch (ns : Namespace) : Tagged :=
  ⟨ns, ⟨[], ⟨true, "Match", by decide, by decide⟩, {}, .struct .unit⟩, ⟨"src/lib.rs"⟩⟩

theorem qualify_identifies_rawMatch :
    (∃ t, (rawMatch .root).resolve = .ok t ∧ t.typeName = "Match" ∧
      t.receiver = "crate::r#Match") ∧
    ∃ t, (rawMatch (.child .root (.plain "model"))).resolve = .ok t ∧ t.typeName = "Match" ∧
      t.receiver = "crate::model::r#Match" := by
  have htarget (ns : Namespace) : ∃ t, (rawMatch ns).resolve = .ok t := ⟨_, rfl⟩
  constructor
  · obtain ⟨t, ht⟩ := htarget .root
    obtain ⟨hname, hreceiver⟩ := qualify_identifies.2 _ t ht
    exact ⟨t, ht, hname, hreceiver.trans (by decide)⟩
  · obtain ⟨t, ht⟩ := htarget (.child .root (.plain "model"))
    obtain ⟨hname, hreceiver⟩ := qualify_identifies.2 _ t ht
    exact ⟨t, ht, hname, hreceiver.trans (by decide)⟩

end SanitizeGen
