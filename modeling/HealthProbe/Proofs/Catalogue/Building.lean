import HealthProbe.Catalogue
import Mathlib.Data.List.Forall2

/-! # What can be made of the entries of a configuration

The checkers of entries are made in order, up to the first entry of which none can be made. The kind that
comes with the program makes a checker from the name, the kind and the network block of its entry alone:
neither the node that is checked, nor the inventory, nor what the network will answer has a part in it.
-/
namespace HealthProbe

/-- Lists that are related element by element are related at each place. -/
theorem exists_getElem?_of_forall₂ {α β : Type} {R : α → β → Prop} {as : List α} {bs : List β} {i : Nat}
    {a : α} (h : List.Forall₂ R as bs) (ha : as[i]? = some a) : ∃ b, bs[i]? = some b ∧ R a b := by
  induction h generalizing i with
  | nil => cases ha
  | cons related _ ih =>
    cases i with
    | zero =>
      cases ha
      exact ⟨_,rfl,related⟩
    | succ i => exact ih ha

namespace Catalogue
variable {k : Catalogue} {e : CheckerEntry} {es : List CheckerEntry} {c : Checker} {cs : List Checker}
  {f : BuildFailure}

def Makes (k : Catalogue) (e : CheckerEntry) : Prop := ∃ c, k.build e = .ok c

def FirstRefused (k : Catalogue) (es : List CheckerEntry) (f : BuildFailure) : Prop :=
  ∃ (i : Nat) (e : CheckerEntry), es[i]? = some e ∧ k.build e = .error f ∧
    ∀ (j : Nat) (d : CheckerEntry), j < i → es[j]? = some d → k.Makes d

theorem firstRefused_cons_of_error (h : k.build e = .error f) : k.FirstRefused (e :: es) f :=
  ⟨0,e,rfl,h,fun _ _ hj => absurd hj (Nat.not_lt_zero _)⟩

theorem FirstRefused.cons (h : k.FirstRefused es f) (made : k.Makes e) : k.FirstRefused (e :: es) f := by
  obtain ⟨i,d,hd,refused,before⟩ := h
  refine ⟨i + 1,d,hd,refused,?_⟩
  intro j d' hj hd'
  cases j with
  | zero =>
    cases hd'
    exact made
  | succ j => exact before j d' (Nat.lt_of_succ_lt_succ hj) hd'

theorem buildAll_cons_of_ok (h : k.build e = .ok c) :
    k.buildAll (e :: es) = (k.buildAll es).map (c :: ·) := by
  rw [buildAll, h]
  cases k.buildAll es <;> rfl

/-- Either there is a checker of each entry, or one entry is the first to be refused. -/
theorem buildAll_spec (k : Catalogue) (es : List CheckerEntry) :
    (∃ cs, k.buildAll es = .ok cs ∧ List.Forall₂ (fun e c => k.build e = .ok c) es cs) ∨
      ∃ f, k.buildAll es = .error f ∧ k.FirstRefused es f := by
  induction es with
  | nil => exact .inl ⟨[],rfl,.nil⟩
  | cons e es ih =>
    cases built : k.build e with
    | error f =>
      refine .inr ⟨f,?_,firstRefused_cons_of_error built⟩
      rw [buildAll, built]
    | ok c =>
      rw [buildAll_cons_of_ok built]
      rcases ih with ⟨cs,all,made⟩ | ⟨f,all,refused⟩
      · exact .inl ⟨c :: cs,by rw [all]; rfl,.cons built made⟩
      · exact .inr ⟨f,by rw [all]; rfl,refused.cons ⟨c,built⟩⟩

theorem FirstRefused.not_forall (h : k.FirstRefused es f) : ¬ ∀ e ∈ es, k.Makes e := by
  intro all
  obtain ⟨i,e,he,refused,_⟩ := h
  obtain ⟨c,made⟩ := all e (List.mem_of_getElem? he)
  cases made.symm.trans refused

theorem FirstRefused.unique {g : BuildFailure} (hf : k.FirstRefused es f) (hg : k.FirstRefused es g) :
    f = g := by
  obtain ⟨i,e,he,refused,before⟩ := hf
  obtain ⟨j,d,hd,refused',before'⟩ := hg
  rcases Nat.lt_trichotomy i j with lt | rfl | lt
  · obtain ⟨c,made⟩ := before' i e lt he
    cases made.symm.trans refused
  · cases he.symm.trans hd
    exact Except.error.inj (refused.symm.trans refused')
  · obtain ⟨c,made⟩ := before j d lt hd
    cases made.symm.trans refused'

theorem forall₂_of_buildAll (h : k.buildAll es = .ok cs) :
    List.Forall₂ (fun e c => k.build e = .ok c) es cs := by
  rcases k.buildAll_spec es with ⟨cs',all,made⟩ | ⟨f,all,_⟩
  · cases h.symm.trans all
    exact made
  · cases h.symm.trans all

theorem makes_of_forall₂ (h : List.Forall₂ (fun e c => k.build e = .ok c) es cs) :
    ∀ e ∈ es, k.Makes e := by
  induction h with
  | nil => exact fun e he => nomatch he
  | cons made _ ih => exact List.forall_mem_cons.mpr ⟨⟨_,made⟩,ih⟩

theorem exists_entry_of_mem (h : List.Forall₂ (fun e c => k.build e = .ok c) es cs) (hc : c ∈ cs) :
    ∃ e, k.build e = .ok c := by
  induction h with
  | nil => cases hc
  | cons built _ ih =>
    rcases List.mem_cons.mp hc with rfl | later
    · exact ⟨_,built⟩
    · exact ih later

theorem buildAll_eq_error_iff : k.buildAll es = .error f ↔ k.FirstRefused es f := by
  rcases k.buildAll_spec es with ⟨cs,all,made⟩ | ⟨g,all,refused⟩
  · rw [all]
    exact ⟨fun h => (nomatch h),fun h => absurd (makes_of_forall₂ made) h.not_forall⟩
  · rw [all, Except.error.injEq]
    exact ⟨fun h => h ▸ refused,fun h => refused.unique h⟩

theorem buildAll_isOk_iff : (∃ cs, k.buildAll es = .ok cs) ↔ ∀ e ∈ es, k.Makes e := by
  constructor
  · rintro ⟨cs,all⟩
    exact makes_of_forall₂ (forall₂_of_buildAll all)
  · intro makes
    rcases k.buildAll_spec es with ⟨cs,all,_⟩ | ⟨f,_,refused⟩
    · exact ⟨cs,all⟩
    · exact absurd makes refused.not_forall

end Catalogue

/-! ## The kind that comes with the program -/

/-- What keeps a checker from being made of an entry. -/
inductive CheckerEntry.Refused (e : CheckerEntry) : BuildFailure → Prop
  | unknownKind (kind : e.kind ≠ networkKind) : Refused e (.unknownKind e.kind)
  | noNetwork (kind : e.kind = networkKind) (network : e.network = none) :
      Refused e (.rejected e.name e.kind ("检测器 " ++ e.name ++ " 缺少 [network] 参数"))
  | noInquiry {s : NetworkSpec} {reason : String} (kind : e.kind = networkKind)
      (network : e.network = some s) (inquiry : s.inquiry = .error reason) :
      Refused e (.rejected e.name e.kind reason)

structure CheckerEntry.Inquires (e : CheckerEntry) (s : NetworkSpec) (i : Inquiry) : Prop where
  kind : e.kind = networkKind
  network : e.network = some s
  inquiry : s.inquiry = .ok i

def CheckerEntry.checker (e : CheckerEntry) (s : NetworkSpec) (i : Inquiry) (net : Net) (d : Directory)
    (node : String) : Checker :=
  ⟨e.name, fun n => (NetworkCheck.forNode e.name s node).behaviourBy d fun _ a port => net i port n a⟩

namespace Catalogue
variable {net : Net} {d : Directory} {node : String} {e : CheckerEntry} {c : Checker} {f : BuildFailure}

def builtin (net : Net) (d : Directory) (node : String) : Catalogue := empty.withBuiltin net d node

theorem find?_makers_builtin (kind : String) : (builtin net d node).makers.find? kind =
    if kind = networkKind then some (networkMaker net d node) else none := by
  split
  · rename_i same
    subst same
    exact Table.find?_insert_self ..
  · rename_i other
    exact Table.find?_insert_of_ne _ _ other

theorem build_builtin (net : Net) (d : Directory) (node : String) (e : CheckerEntry) :
    (∃ s i, e.Inquires s i ∧ (builtin net d node).build e = .ok (e.checker s i net d node)) ∨
      ∃ f, e.Refused f ∧ (builtin net d node).build e = .error f := by
  by_cases kind : e.kind = networkKind
  · have made : (builtin net d node).makers.find? e.kind = some (networkMaker net d node) := by
      rw [find?_makers_builtin, if_pos kind]
    cases network : e.network with
    | none => exact .inr ⟨_,.noNetwork kind network,by simp [build, made, networkMaker, network]⟩
    | some s =>
      cases inquiry : s.inquiry with
      | error reason =>
        exact .inr ⟨_,.noInquiry kind network inquiry,by simp [build, made, networkMaker, network, inquiry]⟩
      | ok i =>
        refine .inl ⟨s,i,⟨kind,network,inquiry⟩,?_⟩
        simp [build, made, networkMaker, network, inquiry, CheckerEntry.checker]
  · refine .inr ⟨_,.unknownKind kind,?_⟩
    rw [build, find?_makers_builtin, if_neg kind]

end Catalogue

theorem CheckerEntry.Refused.not_inquires {e : CheckerEntry} {f : BuildFailure} {s : NetworkSpec}
    {i : Inquiry} (h : e.Refused f) : ¬ e.Inquires s i := by
  rintro ⟨kind,network,inquiry⟩
  cases h with
  | unknownKind other => exact other kind
  | noNetwork _ absent => cases network.symm.trans absent
  | noInquiry _ network' failed =>
    cases network.symm.trans network'
    cases inquiry.symm.trans failed

theorem CheckerEntry.Refused.unique {e : CheckerEntry} {f g : BuildFailure} (hf : e.Refused f)
    (hg : e.Refused g) : f = g := by
  cases hf with
  | unknownKind other =>
    cases hg with
    | unknownKind => rfl
    | noNetwork kind | noInquiry kind => exact absurd kind other
  | noNetwork kind absent =>
    cases hg with
    | unknownKind other => exact absurd kind other
    | noNetwork => rfl
    | noInquiry _ network => cases absent.symm.trans network
  | noInquiry kind network failed =>
    cases hg with
    | unknownKind other => exact absurd kind other
    | noNetwork _ absent => cases absent.symm.trans network
    | noInquiry _ network' failed' =>
      cases network.symm.trans network'
      cases failed.symm.trans failed'
      rfl

namespace Catalogue
variable {net : Net} {d : Directory} {node : String} {e : CheckerEntry} {c : Checker} {f : BuildFailure}

theorem build_builtin_eq_error_iff : (builtin net d node).build e = .error f ↔ e.Refused f := by
  rcases build_builtin net d node e with ⟨s,i,inquires,built⟩ | ⟨g,refused,built⟩
  · rw [built]
    exact ⟨fun h => (nomatch h),fun h => absurd inquires h.not_inquires⟩
  · rw [built, Except.error.injEq]
    exact ⟨fun h => h ▸ refused,fun h => refused.unique h⟩

theorem build_builtin_eq_ok_iff : (builtin net d node).build e = .ok c ↔
    ∃ s i, e.Inquires s i ∧ c = e.checker s i net d node := by
  rcases build_builtin net d node e with ⟨s,i,inquires,built⟩ | ⟨g,refused,built⟩
  · rw [built, Except.ok.injEq]
    constructor
    · intro h
      exact ⟨s,i,inquires,h.symm⟩
    · rintro ⟨s',i',inquires',rfl⟩
      cases inquires.network.symm.trans inquires'.network
      cases inquires.inquiry.symm.trans inquires'.inquiry
      rfl
  · rw [built]
    constructor
    · intro h
      cases h
    · rintro ⟨s,i,inquires,_⟩
      exact absurd inquires refused.not_inquires

theorem makes_builtin_iff : (builtin net d node).Makes e ↔ ∃ s i, e.Inquires s i := by
  simp only [Makes, build_builtin_eq_ok_iff]
  constructor
  · rintro ⟨_,s,i,inquires,_⟩
    exact ⟨s,i,inquires⟩
  · rintro ⟨s,i,inquires⟩
    exact ⟨_,s,i,inquires,rfl⟩

theorem name_of_build (h : (builtin net d node).build e = .ok c) : c.name = e.name := by
  obtain ⟨s,i,_,rfl⟩ := build_builtin_eq_ok_iff.mp h
  rfl

theorem map_name_of_forall₂ {es : List CheckerEntry} {cs : List Checker}
    (h : List.Forall₂ (fun e c => (builtin net d node).build e = .ok c) es cs) :
    cs.map Checker.name = es.map CheckerEntry.name := by
  induction h with
  | nil => rfl
  | cons built _ ih => rw [List.map_cons, List.map_cons, name_of_build built, ih]

end Catalogue
end HealthProbe
