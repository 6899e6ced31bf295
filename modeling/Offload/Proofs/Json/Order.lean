import Offload.Proofs.Json.RoundTrip
import Mathlib.Data.List.Induction
import Mathlib.Data.List.Nodup

/-!
# The order of the fields of an object

Of two fields with different names it makes no difference which one comes first in the text, at
whatever depth of the value their object stands. Fields of one name may not change places: the last
of them counts.
-/

namespace Offload.Json

/-! ## Sorting forgets the order -/

/-- Two fields of different names find their places in either order. -/
theorem Fields.insert_comm {k l : String} (hne : k ≠ l) (v w : Json) (fields : Fields) :
    Fields.insert k v (Fields.insert l w fields) =
      Fields.insert l w (Fields.insert k v fields) := by
  induction fields with
  | nil => grind [Fields.insert]
  | cons f fields ih =>
    obtain ⟨k', v'⟩ := f
    grind [Fields.insert]

theorem Fields.sorted_swap {f g : String × Json} (hne : f.1 ≠ g.1) (before after : Fields) :
    Fields.sorted (before ++ f :: g :: after) = Fields.sorted (before ++ g :: f :: after) := by
  unfold Fields.sorted
  simp only [List.foldl_append, List.foldl_cons]
  rw [Fields.insert_comm hne.symm]

/-- A field of a new name is added to the others. -/
theorem Fields.insert_perm {key : String} {fields : Fields} (h : key ∉ fields.map Prod.fst)
    (value : Json) : (Fields.insert key value fields).Perm ((key, value) :: fields) := by
  induction fields with
  | nil => exact .rfl
  | cons f fields ih =>
    rw [List.map_cons, List.mem_cons, not_or] at h
    rw [Fields.insert]
    split
    · exact .rfl
    · rw [if_neg h.1]
      exact ((ih h.2).cons f).trans (.swap (key, value) f fields)

/-- Where no name is repeated, no field is lost. -/
theorem Fields.sorted_perm {fields : Fields} (h : (fields.map Prod.fst).Nodup) :
    (Fields.sorted fields).Perm fields := by
  induction fields using List.reverseRecOn with
  | nil => exact .rfl
  | append_singleton fields f ih =>
    rw [List.map_append, List.nodup_append_comm] at h
    obtain ⟨hnew, hfields⟩ := List.nodup_cons.mp h
    have hsorted := ih hfields
    have hname : f.1 ∉ (Fields.sorted fields).map Prod.fst := fun hmem =>
      hnew ((hsorted.map Prod.fst).mem_iff.mp hmem)
    have hinsert : (Fields.sorted (fields ++ [f])).Perm (f :: Fields.sorted fields) := by
      unfold Fields.sorted
      rw [List.foldl_append]
      exact Fields.insert_perm hname f.2
    exact hinsert.trans ((hsorted.cons f).trans (List.perm_append_singleton f fields).symm)

/-! ## Parts of a tree have their own values -/

theorem valuesOfItems?_append (depth : Nat) (before after : List Tree) :
    valuesOfItems? depth (before ++ after) =
      (do return (← valuesOfItems? depth before) ++ (← valuesOfItems? depth after)) := by
  induction before with
  | nil => simp [valuesOfItems?]
  | cons t before ih =>
    rw [List.cons_append, valuesOfItems?, valuesOfItems?, ih]
    cases t.value? depth <;> cases valuesOfItems? depth before <;>
      cases valuesOfItems? depth after <;> rfl

theorem valuesOfFields?_append (depth : Nat) (before after : List (List Piece × Tree)) :
    valuesOfFields? depth (before ++ after) =
      (do return (← valuesOfFields? depth before) ++ (← valuesOfFields? depth after)) := by
  induction before with
  | nil => simp [valuesOfFields?]
  | cons f before ih =>
    obtain ⟨k, t⟩ := f
    rw [List.cons_append, valuesOfFields?, valuesOfFields?, ih]
    cases textOfPieces? k <;> cases t.value? depth <;> cases valuesOfFields? depth before <;>
      cases valuesOfFields? depth after <;> rfl

/-- The fields that two neighbours and all after them make. -/
theorem valuesOfFields?_pair (depth : Nat) (f g : List Piece × Tree)
    (after : List (List Piece × Tree)) :
    valuesOfFields? depth (f :: g :: after) = (do
      let k ← textOfPieces? f.1
      let v ← f.2.value? depth
      let l ← textOfPieces? g.1
      let w ← g.2.value? depth
      return (String.ofList k, v) :: (String.ofList l, w) :: (← valuesOfFields? depth after)) := by
  obtain ⟨k, t⟩ := f
  obtain ⟨l, u⟩ := g
  simp only [valuesOfFields?]
  cases textOfPieces? k <;> cases t.value? depth <;> cases textOfPieces? l <;>
    cases u.value? depth <;> cases valuesOfFields? depth after <;> rfl

/-! ## Trees up to the order of their fields -/

/-- The trees differ in nothing but the order of differently named fields. -/
inductive Tree.Reordered : Tree → Tree → Prop where
  | refl (t : Tree) : Reordered t t
  | trans {t u v : Tree} (h : Reordered t u) (h' : Reordered u v) : Reordered t v
  /-- in an item of an array -/
  | item {t u : Tree} (before after : List Tree) (h : Reordered t u) :
    Reordered (.array (before ++ t :: after)) (.array (before ++ u :: after))
  /-- in the value of a field -/
  | value {t u : Tree} (key : List Piece) (before after : List (List Piece × Tree))
    (h : Reordered t u) :
    Reordered (.object (before ++ (key, t) :: after)) (.object (before ++ (key, u) :: after))
  /-- two neighbours change places -/
  | swap {f g : List Piece × Tree} (before after : List (List Piece × Tree))
    (hne : textOfPieces? f.1 ≠ textOfPieces? g.1) :
    Reordered (.object (before ++ f :: g :: after)) (.object (before ++ g :: f :: after))

/-- Neighbours of different names make one object in either order. -/
theorem sorted_valuesOfFields?_swap {f g : List Piece × Tree}
    (hne : textOfPieces? f.1 ≠ textOfPieces? g.1) (depth : Nat)
    (before after : List (List Piece × Tree)) :
    (valuesOfFields? depth (before ++ f :: g :: after)).map Fields.sorted =
      (valuesOfFields? depth (before ++ g :: f :: after)).map Fields.sorted := by
  rw [valuesOfFields?_append, valuesOfFields?_append, valuesOfFields?_pair, valuesOfFields?_pair]
  cases hf : textOfPieces? f.1 with
  | none =>
    cases valuesOfFields? depth before <;> cases textOfPieces? g.1 <;>
      cases g.2.value? depth <;> rfl
  | some k =>
    cases hg : textOfPieces? g.1 with
    | none => cases valuesOfFields? depth before <;> cases f.2.value? depth <;> rfl
    | some l =>
      have hkl : String.ofList k ≠ String.ofList l := fun h => by
        rw [hf, hg, String.ofList_inj.1 h] at hne
        exact hne rfl
      cases valuesOfFields? depth before with
      | none => rfl
      | some fields =>
        cases f.2.value? depth <;> cases g.2.value? depth <;>
          cases valuesOfFields? depth after <;> try rfl
        exact congrArg some (Fields.sorted_swap hkl _ _)

/-- A value does not depend on the order of fields. -/
theorem Tree.Reordered.value?_eq {t u : Tree} (h : Reordered t u) (depth : Nat) :
    t.value? depth = u.value? depth := by
  induction h generalizing depth with
  | refl t => rfl
  | trans _ _ ih ih' => exact (ih depth).trans (ih' depth)
  | item before after _ ih =>
    rw [Tree.value?, Tree.value?, valuesOfItems?_append, valuesOfItems?_append, valuesOfItems?,
      valuesOfItems?, ih]
  | value key before after _ ih =>
    rw [Tree.value?, Tree.value?, valuesOfFields?_append, valuesOfFields?_append, valuesOfFields?,
      valuesOfFields?, ih]
  | swap before after hne =>
    have hsorted := congrArg (Option.map Json.object)
      (sorted_valuesOfFields?_swap hne (depth - 1) before after)
    rw [Option.map_map, Option.map_map] at hsorted
    rw [Tree.value?, Tree.value?]
    split
    · rfl
    · exact hsorted

/-! ## Texts -/

/-- The texts hold JSON of one grammar tree, but for the order of differently named fields. -/
def Reordered (text text' : String) : Prop :=
  ∃ t u, Tree.ofChars? text.toList = some t ∧ Tree.ofChars? text'.toList = some u ∧
    Tree.Reordered t u

theorem Reordered.parse?_eq {text text' : String} (h : Reordered text text') :
    parse? text = parse? text' := by
  obtain ⟨t, u, ht, hu, htu⟩ := h
  unfold parse?
  rw [ht, hu]
  exact htu.value?_eq maxDepth

/-- The text is an object with these fields, in the order and with the repetitions of the text. -/
def HoldsFields (text : String) (fields : Fields) : Prop :=
  ∃ trees, Tree.ofChars? text.toList = some (.object trees) ∧
    valuesOfFields? (maxDepth - 1) trees = some fields

/-- The value that counts for a key: of several fields of one name the last. -/
def Fields.last? (fields : Fields) (key : String) : Option Json := Fields.get? fields.reverse key

/-- What is written as an object holds the fields of that object. -/
theorem holdsFields_render {fields : Fields} (h : Plain maxDepth (.object fields)) :
    HoldsFields (Json.object fields).render (canonicalFields fields) := by
  unfold HoldsFields render
  rw [String.toList_ofList]
  cases fields with
  | nil => exact ⟨[], rfl, rfl⟩
  | cons f rest =>
    rw [Plain] at h
    obtain ⟨trees, hreads, hvalues⟩ :=
      reads_charsOfFields (maxDepth - 1) (f :: rest) (List.cons_ne_nil _ _) h.2
    refine ⟨trees, Reads.ofChars? ?_, hvalues⟩
    rw [chars]
    exact Reads.object hreads

theorem HoldsFields.parse?_eq {text : String} {fields : Fields} (h : HoldsFields text fields) :
    parse? text = some (.object (Fields.sorted fields)) := by
  obtain ⟨trees, htree, hfields⟩ := h
  unfold parse?
  rw [htree, Option.bind_some, Tree.value?, if_neg (by decide), hfields]
  rfl

end Offload.Json
