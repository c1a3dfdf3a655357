import DocMapping.Bson
import DocMapping.Proofs.Association

/-!
# Elements of Documents

What inserting an element does to the look-up of all names and to the names in their order.  The
document of a list of elements without repeated names is the list itself.
-/

namespace DocMapping.Document

/-- The names of the elements in order. -/
def names (document : Document) : List String := document.map Prod.fst

theorem get?_isSome {document : Document} {name : String} :
    (document.get? name).isSome ↔ name ∈ document.names :=
  Association.lookup_isSome

theorem get?_cons (name other : String) (value : Bson) (rest : Document) :
    Document.get? ((name, value) :: rest) other =
      if other = name then some value else Document.get? rest other :=
  Association.lookup_cons name other value rest

theorem insert_eq_put (document : Document) (name : String) (value : Bson) :
    document.insert name value = Association.put name value document := by
  induction document with
  | nil => rfl
  | cons element rest ih =>
    obtain ⟨first, old⟩ := element
    rw [insert, Association.put, ih]

theorem get?_insert (document : Document) (name other : String) (value : Bson) :
    (document.insert name value).get? other =
      if other = name then some value else document.get? other := by
  rw [insert_eq_put]
  exact Association.lookup_put document name other value

theorem names_insert (document : Document) (name : String) (value : Bson) :
    (document.insert name value).names =
      if name ∈ document.names then document.names else document.names ++ [name] := by
  rw [insert_eq_put]
  exact Association.keys_put document name value

theorem insert_of_notMem {document : Document} {name : String} (h : name ∉ document.names)
    (value : Bson) : document.insert name value = document ++ [(name, value)] := by
  induction document with
  | nil => rfl
  | cons element rest ih =>
    obtain ⟨first, old⟩ := element
    unfold names at *
    rw [List.map_cons, List.mem_cons, not_or] at h
    rw [insert, if_neg h.1, ih h.2, List.cons_append]

theorem mem_insert {document : Document} {name : String} {value : Bson} {element : String × Bson}
    (h : element ∈ document.insert name value) : element = (name, value) ∨ element ∈ document :=
  Association.mem_put (insert_eq_put document name value ▸ h)

/-! ## Documents of lists -/

/-- Every name occurs once. -/
def Distinct (document : Document) : Prop := document.names.Nodup

theorem distinct_nil : Distinct [] := List.nodup_nil

theorem Distinct.insert {document : Document} (h : document.Distinct) (name : String)
    (value : Bson) : (document.insert name value).Distinct := by
  rw [insert_eq_put]
  exact Association.nodup_put h name value

theorem Distinct.get? {document : Document} (h : document.Distinct) {name : String} {value : Bson}
    (hmem : (name, value) ∈ document) : document.get? name = some value :=
  Association.lookup_of_mem h hmem

/-- Elements put one after the other into a document. -/
def insertAll (document : Document) (elements : List (String × Bson)) : Document :=
  elements.foldl (fun document element ↦ document.insert element.1 element.2) document

theorem ofList_eq_insertAll (elements : List (String × Bson)) :
    ofList elements = insertAll [] elements := rfl

theorem Distinct.insertAll {document : Document} (h : document.Distinct)
    (elements : List (String × Bson)) : (document.insertAll elements).Distinct := by
  induction elements generalizing document with
  | nil => exact h
  | cons element rest ih => exact ih (h.insert element.1 element.2)

theorem mem_insertAll {document : Document} {elements : List (String × Bson)}
    {element : String × Bson} (h : element ∈ document.insertAll elements) :
    element ∈ document ∨ element ∈ elements := by
  induction elements generalizing document with
  | nil => exact .inl h
  | cons first rest ih =>
    rcases ih h with hold | hrest
    · rcases mem_insert hold with heq | hold
      · exact .inr (heq ▸ List.mem_cons_self)
      · exact .inl hold
    · exact .inr (List.mem_cons_of_mem _ hrest)

theorem mem_names_insertAll {document : Document} {elements : List (String × Bson)} {name : String} :
    name ∈ (document.insertAll elements).names ↔
      name ∈ document.names ∨ name ∈ elements.map Prod.fst := by
  induction elements generalizing document with
  | nil => simp [insertAll]
  | cons first rest ih =>
    have hstep : document.insertAll (first :: rest) =
        (document.insert first.1 first.2).insertAll rest := rfl
    have hinsert : name ∈ (document.insert first.1 first.2).names ↔
        name ∈ document.names ∨ name = first.1 := by
      rw [names_insert]
      split
      · next hmem =>
        refine ⟨.inl, ?_⟩
        rintro (hname | rfl)
        · exact hname
        · exact hmem
      · simp
    rw [hstep, ih, hinsert, List.map_cons, List.mem_cons, or_assoc]

theorem get?_insertAll_of_notMem {document : Document} {elements : List (String × Bson)}
    {name : String} (h : name ∉ elements.map Prod.fst) :
    (document.insertAll elements).get? name = document.get? name := by
  induction elements generalizing document with
  | nil => rfl
  | cons first rest ih =>
    rw [List.map_cons, List.mem_cons, not_or] at h
    have hstep : document.insertAll (first :: rest) =
        (document.insert first.1 first.2).insertAll rest := rfl
    rw [hstep, ih h.2, get?_insert, if_neg h.1]

/-- An element that comes last is found, whatever was there before, if no other one of its name
holds another value. -/
theorem get?_insertAll {elements : List (String × Bson)} (document : Document) {name : String}
    {value : Bson} (hmem : (name, value) ∈ elements)
    (hall : ∀ other, (name, other) ∈ elements → other = value) :
    (document.insertAll elements).get? name = some value := by
  induction elements generalizing document with
  | nil => cases hmem
  | cons first rest ih =>
    by_cases hname : name ∈ rest.map Prod.fst
    · obtain ⟨⟨_, other⟩, hother, rfl⟩ := List.mem_map.1 hname
      have hvalue := hall other (List.mem_cons_of_mem first hother)
      exact ih _ (hvalue ▸ hother) fun other hother ↦ hall other (List.mem_cons_of_mem first hother)
    · rcases List.mem_cons.1 hmem with rfl | hrest
      · have hstep : document.insertAll ((name, value) :: rest) =
            (document.insert name value).insertAll rest := rfl
        rw [hstep, get?_insertAll_of_notMem hname, get?_insert, if_pos rfl]
      · exact absurd (List.mem_map_of_mem hrest) hname

theorem get?_insertAll_of_nodup {elements : List (String × Bson)}
    (h : (elements.map Prod.fst).Nodup) (document : Document) {name : String} {value : Bson}
    (hmem : (name, value) ∈ elements) : (document.insertAll elements).get? name = some value :=
  get?_insertAll document hmem fun _ hother ↦
    congrArg Prod.snd (List.inj_on_of_nodup_map h hother hmem rfl)

theorem insertAll_append (document : Document) (front back : List (String × Bson)) :
    document.insertAll (front ++ back) = (document.insertAll front).insertAll back :=
  List.foldl_append

theorem insertAll_of_nodup {document : Document} {elements : List (String × Bson)}
    (h : (document.names ++ elements.map Prod.fst).Nodup) :
    document.insertAll elements = document ++ elements := by
  induction elements generalizing document with
  | nil => exact (List.append_nil _).symm
  | cons element rest ih =>
    have hname : element.1 ∉ document.names := by
      intro hmem
      exact (List.nodup_append.1 h).2.2 _ hmem _ (by simp) rfl
    have hstep : document.insertAll (element :: rest) =
        (document ++ [element]).insertAll rest := by
      rw [← insert_of_notMem hname element.2]
      rfl
    rw [hstep, ih, List.append_assoc]
    · rfl
    · simpa [names] using h

/-- Documents made of elements never hold a name twice. -/
theorem distinct_ofList (elements : List (String × Bson)) : (ofList elements).Distinct :=
  distinct_nil.insertAll elements

theorem mem_ofList {elements : List (String × Bson)} {element : String × Bson}
    (h : element ∈ ofList elements) : element ∈ elements :=
  (mem_insertAll h).resolve_left List.not_mem_nil

theorem ofList_of_nodup {elements : List (String × Bson)} (h : (elements.map Prod.fst).Nodup) :
    ofList elements = elements := by
  have hnames : (names [] ++ elements.map Prod.fst).Nodup := h
  rw [ofList_eq_insertAll, insertAll_of_nodup hnames, List.nil_append]

/-! ## Pairs of documents -/

/-- Both documents have the same names in the same order, and related values. -/
def Paired (r : Bson → Bson → Prop) : Document → Document → Prop :=
  List.Forall₂ fun a b ↦ a.1 = b.1 ∧ r a.2 b.2

section

variable {r : Bson → Bson → Prop} {first second : Document}

theorem Paired.insert (h : Paired r first second) (name : String) {a b : Bson} (hr : r a b) :
    Paired r (first.insert name a) (second.insert name b) := by
  induction h with
  | nil => exact .cons ⟨rfl, hr⟩ .nil
  | @cons x y xs ys hxy hrest ih =>
    obtain ⟨other, old⟩ := x
    obtain ⟨_, new⟩ := y
    obtain ⟨rfl, hvalues⟩ := hxy
    unfold Document.insert
    split
    · exact .cons ⟨rfl, hr⟩ hrest
    · exact .cons ⟨rfl, hvalues⟩ ih

/-- Putting pairs of elements into a pair of documents keeps them a pair. -/
theorem Paired.insertAll (h : Paired r first second) {elements others : List (String × Bson)}
    (helements : Paired r elements others) :
    Paired r (first.insertAll elements) (second.insertAll others) := by
  induction helements generalizing first second with
  | nil => exact h
  | @cons x y xs ys hxy _ ih =>
    have hstep : Paired r (first.insert x.1 x.2) (second.insert y.1 y.2) := by
      rw [← hxy.1]
      exact h.insert x.1 hxy.2
    exact ih hstep

theorem Paired.imp_of_mem {s : Bson → Bson → Prop} (h : Paired r first second)
    (hrs : ∀ a ∈ first, ∀ b ∈ second, r a.2 b.2 → s a.2 b.2) : Paired s first second := by
  induction h with
  | nil => exact .nil
  | @cons x y xs ys hxy _ ih =>
    refine .cons ⟨hxy.1, hrs x List.mem_cons_self y List.mem_cons_self hxy.2⟩ ?_
    exact ih fun a ha b hb ↦ hrs a (List.mem_cons_of_mem x ha) b (List.mem_cons_of_mem y hb)

theorem Paired.ofList {elements others : List (String × Bson)} (h : Paired r elements others) :
    Paired r (ofList elements) (ofList others) :=
  Paired.insertAll .nil h

end

end DocMapping.Document
