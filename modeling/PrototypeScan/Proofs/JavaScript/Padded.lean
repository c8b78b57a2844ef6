import PrototypeScan.Proofs.JavaScript.Spelling

/-!
Parentheses and comments make no difference. A node that gets parentheses around it, any number of times, keeps
its field and its place in the tree for rules, and what may stand anywhere is left out wherever it stands.
-/
namespace PrototypeScan.JavaScript.Estree
open Text Concrete

variable {source : Source} {unnamed : String}

/-- The same node under another field, or under none. -/
def refield (field : Option String) : Concrete → Concrete
  | .node l cs => .node { l with field := field } cs

/-- That the second list is the first one with parentheses around some of the nodes and with more nodes that may
stand anywhere, both at any depth. All nodes of the first list keep their labels, but for the field of a node
that gets parentheses: these take it over. -/
inductive Padded : List Concrete → List Concrete → Prop where
  | nil : Padded [] []
  | keep (l : Label) {below below' rest rest' : List Concrete} (hbelow : Padded below below')
    (hrest : Padded rest rest') : Padded (.node l below :: rest) (.node l below' :: rest')
  | enclose {c p : Concrete} {rest rest' : List Concrete} (field : Option String) (hc : shown c = true)
    (hp : shown p = true) (hkind : p.label.kind = parenthesized) (hfield : p.label.field = c.label.field)
    (hinside : Padded [refield field c] (p.children.filter (!isToken ·))) (hrest : Padded rest rest') :
    Padded (c :: rest) (p :: rest')
  | insert {e : Concrete} {rest rest' : List Concrete} (he : e.label.extra = true)
    (hrest : Padded rest rest') : Padded rest (e :: rest')

namespace Padded

variable {cs ds es fs : List Concrete}

theorem of_children (h : ∀ c ∈ cs, Padded c.children c.children) : Padded cs cs := by
  induction cs with
  | nil => exact .nil
  | cons c cs ih =>
    obtain ⟨hc, hcs⟩ := List.forall_mem_cons.1 h
    cases c with
    | node l below => exact .keep l hc (ih hcs)

theorem refl (cs : List Concrete) : Padded cs cs :=
  of_children fun c _ => Concrete.induction (fun _ _ ih => of_children ih) c

theorem append (h : Padded cs ds) (hrest : Padded es fs) : Padded (cs ++ es) (ds ++ fs) := by
  induction h with
  | nil => exact hrest
  | keep l hbelow _ _ ih => exact .keep l hbelow ih
  | enclose field hc hp hkind hfield hinside _ _ ih => exact .enclose field hc hp hkind hfield hinside ih
  | insert he _ ih => exact .insert he ih

end Padded

/-! What children come to. -/

theorem result?_refield (field : Option String) (c : Concrete) :
    result? source (refield field c) = result? source c := by
  cases c with
  | node l cs =>
    rw [refield, result?, result?]
    rfl

theorem result?_parenthesized {p : Concrete} (h : shown p = true) (hkind : p.label.kind = parenthesized) :
    result? source p = firstResult? source p.children := by
  cases p with
  | node l cs =>
    obtain ⟨hnamed, hextra⟩ := shown_eq_true_iff.1 h
    rw [label] at hnamed hextra hkind
    rw [result?, hnamed, hextra, Bool.not_true, Bool.or_false, if_neg Bool.false_ne_true, if_pos hkind, children]

theorem firstResult?_cons_of_none {c : Concrete} (h : result? source c = none) (cs : List Concrete) :
    firstResult? source (c :: cs) = firstResult? source cs := by
  rw [firstResult?, h]
  rfl

/-- Tokens give nothing to the parentheses around them. -/
theorem firstResult?_filter (cs : List Concrete) :
    firstResult? source (cs.filter (!isToken ·)) = firstResult? source cs := by
  induction cs with
  | nil => rfl
  | cons c cs ih =>
    cases hc : isToken c with
    | true =>
      rw [List.filter_cons, hc, Bool.not_true, if_neg Bool.false_ne_true, ih,
        firstResult?_cons_of_none (result?_of_isToken hc)]
    | false => rw [List.filter_cons, hc, Bool.not_false, if_pos rfl, firstResult?, firstResult?, ih]

/-- That lists of children come to the same, inside of parentheses and of any other node. -/
structure SameResults (source : Source) (cs ds : List Concrete) : Prop where
  first : firstResult? source ds = firstResult? source cs
  filled : ∀ unnamed n, Estree.filled source unnamed n ds = Estree.filled source unnamed n cs

namespace SameResults

variable {c d : Concrete} {cs ds : List Concrete}

theorem refl (cs : List Concrete) : SameResults source cs cs := ⟨rfl, fun _ _ => rfl⟩

theorem result? (l : Label) (h : SameResults source cs ds) :
    Estree.result? source (.node l ds) = Estree.result? source (.node l cs) := by
  rw [Estree.result?, Estree.result?, h.first, h.filled]
  rfl

theorem cons (hresult : Estree.result? source d = Estree.result? source c)
    (hadd : ∀ unnamed n, add source unnamed n d = add source unnamed n c) (h : SameResults source cs ds) :
    SameResults source (c :: cs) (d :: ds) where
  first := by rw [firstResult?, firstResult?, hresult, h.first]
  filled unnamed n := by
    rw [filled_eq_foldl, filled_eq_foldl, List.foldl_cons, List.foldl_cons, hadd, ← filled_eq_foldl,
      ← filled_eq_foldl, h.filled]

theorem insert (he : d.label.extra = true) (h : SameResults source cs ds) : SameResults source cs (d :: ds) where
  first := by rw [firstResult?_cons_of_none (result?_of_extra he), h.first]
  filled unnamed n := by
    rw [filled_eq_foldl, List.foldl_cons, add_of_extra he, ← filled_eq_foldl, h.filled]

end SameResults

/-- Padded children come to what they came to before. -/
theorem Padded.sameResults {cs ds : List Concrete} (h : Padded cs ds) : SameResults source cs ds := by
  induction h with
  | nil => exact .refl []
  | keep l _ _ hbelow hrest =>
    have hresult := hbelow.result? l
    refine hrest.cons hresult fun unnamed n => ?_
    rw [add, add, hresult]
    rfl
  | @enclose c p _ _ field hc hp hkind hfield _ _ hinside hrest =>
    have hresult : result? source p = result? source c := by
      calc result? source p
        _ = firstResult? source p.children := result?_parenthesized hp hkind
        _ = firstResult? source [refield field c] := by rw [← firstResult?_filter, hinside.first]
        _ = result? source c := by
          rw [firstResult?, firstResult?, result?_refield]
          cases result? source c <;> rfl
    refine hrest.cons hresult fun unnamed n => ?_
    rw [add_of_shown hp, add_of_shown hc, hresult, hfield]
  | insert he _ hrest => exact hrest.insert he

/-- Below its root a concrete tree may get parentheses around nodes and nodes that may stand anywhere, and
still it is converted to the same tree. -/
theorem build_padded (source : Source) (l : Label) {cs ds : List Concrete} (h : Padded cs ds) :
    build source (.node l ds) = build source (.node l cs) := by
  rw [build_eq_result?, build_eq_result?, h.sameResults.result?]

/-- An assignment to a key in brackets, which stands in two pairs of parentheses and behind a comment. -/
def enclosedKey : Source := ⟨"o[((/**/k))] = v".toList.toArray, .script⟩

/-- The tree of an assignment to a key in brackets that takes as much room as in that source. -/
def keyTree (key : Concrete) : Concrete :=
  assigningTree (spanned "subscript_expression" (some "left") 0 12 [
    spanned "identifier" (some "object") 0 1 [], token "[" none 1, key, token "]" none 11])

def bareKey (field : Option String) : Concrete := spanned "identifier" field 8 9 []

def innerParentheses : Concrete :=
  let comment := .node { (bareKey none).label with kind := "comment", extra := true } []
  spanned parenthesized none 3 10 [token "(" none 3, comment, bareKey none, token ")" none 9]

def outerParentheses : Concrete :=
  spanned parenthesized (some "index") 2 11 [token "(" none 2, innerParentheses, token ")" none 10]

theorem padded_outerParentheses : Padded [bareKey (some "index")] [outerParentheses] := by
  have hinner : Padded [bareKey none] [innerParentheses] :=
    .enclose none rfl rfl rfl rfl (.insert rfl (.refl _)) .nil
  exact .enclose none rfl rfl rfl rfl hinner .nil

theorem padded_keyTree {key key' : Concrete} (h : Padded [key] [key']) :
    Padded (keyTree key).children (keyTree key').children := by
  have hbehind : Padded [key, token "]" none 11] [key', token "]" none 11] := h.append (.refl _)
  have hmember := Padded.append (.refl [spanned "identifier" (some "object") 0 1 [], token "[" none 1]) hbehind
  exact .keep _ (.keep _ (.keep _ hmember (.refl _)) .nil) .nil

theorem build_padded_outerParentheses :
    Padded (keyTree (bareKey (some "index"))).children (keyTree outerParentheses).children ∧
      build enclosedKey (keyTree outerParentheses) = build enclosedKey (keyTree (bareKey (some "index"))) := by
  have h := padded_keyTree padded_outerParentheses
  exact ⟨h, build_padded enclosedKey _ h⟩

end PrototypeScan.JavaScript.Estree
