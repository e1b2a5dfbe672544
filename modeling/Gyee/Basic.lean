import Mathlib.Data.List.Nodup

/-! # Go values shared by the DHT and the peer manager

Byte arrays (`config.NodeID`, `Hash`, `config.DsKey`, `config.SubNetworkID`) are lists of a fixed
length; a Go map is an association list whose keys stay distinct (`GoMap.set` replaces the old
binding); `Run` is what a handler does when it is called: it returns, it panics, or, when its loops
are given a bounded number of iterations, it has not finished yet.

The `config` package is not in the repository; its node record and identity widths are the ones
the handlers read: a node is its identity with its address, and a sub-network identity is two bytes. -/

namespace Gyee

/-- A Go byte array `[n]byte`. -/
structure Bytes (n : Nat) where
  data : List UInt8
  len : data.length = n
  deriving DecidableEq

/-- The byte array of `n` copies of `b`. -/
def Bytes.fill (n : Nat) (b : UInt8) : Bytes n := ⟨List.replicate n b, List.length_replicate n b⟩

/-- `config.NodeID`: a 64 byte public key. -/
abbrev NodeID := Bytes 64

/-- `Hash`: a 32 byte SHA-256 digest. -/
abbrev Hash := Bytes 32

/-- `config.DsKey`: the 32 byte key a query looks up. -/
abbrev DsKey := Bytes 32

/-- `config.SubNetworkID`. -/
abbrev SubNetworkID := Bytes 2

/-- `config.Node`: a peer's identity and address. -/
structure Node where
  ID : NodeID
  IP : List UInt8
  UDP : Nat
  TCP : Nat
  deriving DecidableEq

/-- The node record with identity `id` and no address. -/
def Node.ofId (id : NodeID) : Node := ⟨id, [], 0, 0⟩

/-! ### Go maps -/

/-- A Go map, as the list of its bindings, whose keys are distinct. -/
structure GoMap (κ ν : Type) where
  bindings : List (κ × ν)
  nodup : (bindings.map Prod.fst).Nodup
  deriving DecidableEq

namespace GoMap

variable {κ ν : Type} [DecidableEq κ]

instance : EmptyCollection (GoMap κ ν) := ⟨⟨[], List.nodup_nil⟩⟩

/-- The value bound to a key in a list of bindings. -/
def find : List (κ × ν) → κ → Option ν
  | [], _ => none
  | (k', v) :: m, k => if k' = k then some v else find m k

/-- `v, ok := m[k]`. -/
def get? (m : GoMap κ ν) (k : κ) : Option ν := find m.bindings k

/-- `_, ok := m[k]`. -/
def contains (m : GoMap κ ν) (k : κ) : Bool := (m.get? k).isSome

/-- `delete(m, k)`. -/
def delete (m : GoMap κ ν) (k : κ) : GoMap κ ν :=
  ⟨m.bindings.filter (·.1 ≠ k), m.nodup.sublist ((List.filter_sublist _).map _)⟩

theorem not_mem_delete_keys (m : GoMap κ ν) (k : κ) : k ∉ (m.delete k).bindings.map Prod.fst := by
  simp [delete]

/-- `m[k] = v`. -/
def set (m : GoMap κ ν) (k : κ) (v : ν) : GoMap κ ν :=
  ⟨(m.delete k).bindings ++ [(k, v)], by
    rw [List.map_append, List.map_singleton, List.nodup_append]
    exact ⟨(m.delete k).nodup, List.nodup_singleton _,
      List.disjoint_singleton.mpr (not_mem_delete_keys m k)⟩⟩

/-- `len(m)`. -/
def size (m : GoMap κ ν) : Nat := m.bindings.length

@[simp] theorem get?_empty (k : κ) : (∅ : GoMap κ ν).get? k = none := rfl

omit [DecidableEq κ] in
@[simp] theorem size_empty : (∅ : GoMap κ ν).size = 0 := rfl

theorem find_filter (m : List (κ × ν)) (k k' : κ) :
    find (m.filter (·.1 ≠ k)) k' = if k' = k then none else find m k' := by
  induction m with
  | nil => simp [find]
  | cons p m ih =>
    obtain ⟨a, b⟩ := p
    by_cases ha : a = k <;> by_cases ha' : a = k' <;> simp_all [List.filter_cons, find]

theorem find_append_single (m : List (κ × ν)) (k k' : κ) (v : ν) :
    find (m ++ [(k, v)]) k' = (find m k').or (if k = k' then some v else none) := by
  induction m with
  | nil => simp [find]
  | cons p m ih => obtain ⟨a, b⟩ := p; by_cases ha : a = k' <;> simp_all [find]

@[simp] theorem get?_delete (m : GoMap κ ν) (k k' : κ) :
    (m.delete k).get? k' = if k' = k then none else m.get? k' :=
  find_filter _ _ _

@[simp] theorem get?_set (m : GoMap κ ν) (k k' : κ) (v : ν) :
    (m.set k v).get? k' = if k' = k then some v else m.get? k' := by
  have hd := get?_delete m k k'
  simp only [get?, delete] at hd
  simp only [set, get?, delete, find_append_single, hd]
  by_cases h : k' = k
  · simp [h]
  · simp [h, Ne.symm h]

theorem contains_iff (m : GoMap κ ν) (k : κ) : m.contains k = true ↔ ∃ v, m.get? k = some v := by
  simp [contains, Option.isSome_iff_exists]

@[simp] theorem contains_empty (k : κ) : (∅ : GoMap κ ν).contains k = false := rfl

@[simp] theorem contains_delete (m : GoMap κ ν) (k k' : κ) :
    (m.delete k).contains k' = (k' ≠ k && m.contains k') := by
  by_cases h : k' = k <;> simp [contains, h]

@[simp] theorem contains_set (m : GoMap κ ν) (k k' : κ) (v : ν) :
    (m.set k v).contains k' = (k' = k || m.contains k') := by
  by_cases h : k' = k <;> simp [contains, h]

theorem find_isSome (l : List (κ × ν)) (k : κ) : (find l k).isSome ↔ k ∈ l.map Prod.fst := by
  induction l with
  | nil => simp [find]
  | cons p l ih =>
    obtain ⟨a, b⟩ := p
    by_cases h : a = k
    · subst h; simp [find]
    · simp [find, h, ih, Ne.symm h]

theorem mem_of_find {l : List (κ × ν)} {k : κ} {v : ν} (h : find l k = some v) : (k, v) ∈ l := by
  induction l with
  | nil => simp [find] at h
  | cons p l ih =>
    obtain ⟨a, b⟩ := p
    simp only [find] at h
    split_ifs at h with ha
    · cases h; subst ha; exact List.mem_cons_self _ _
    · exact List.mem_cons_of_mem _ (ih h)

theorem mem_of_get? {m : GoMap κ ν} {k : κ} {v : ν} (h : m.get? k = some v) : (k, v) ∈ m.bindings :=
  mem_of_find h

theorem length_filter_ne (l : List (κ × ν)) (hl : (l.map Prod.fst).Nodup) (k : κ) :
    (l.filter (·.1 ≠ k)).length + (if k ∈ l.map Prod.fst then 1 else 0) = l.length := by
  induction l with
  | nil => simp
  | cons p l ih =>
    obtain ⟨a, b⟩ := p
    rw [List.map_cons, List.nodup_cons] at hl
    have := ih hl.2
    by_cases ha : a = k
    · subst ha
      rw [if_neg hl.1] at this
      simp only [List.filter_cons, ne_eq, not_true_eq_false, decide_False, List.map_cons,
        List.mem_cons, true_or, if_true, List.length_cons]
      rw [← this]
      rfl
    · simp only [List.filter_cons, ne_eq, ha, not_false_eq_true, decide_True, if_true,
        List.length_cons, List.map_cons, List.mem_cons, Ne.symm ha, false_or] at this ⊢
      omega

theorem size_delete (m : GoMap κ ν) (k : κ) :
    (m.delete k).size = if m.contains k then m.size - 1 else m.size := by
  have h := length_filter_ne m.bindings m.nodup k
  simp only [size, delete, contains, get?, find_isSome] at h ⊢
  split_ifs at h ⊢ <;> omega

theorem size_pos_of_contains {m : GoMap κ ν} {k : κ} (h : m.contains k = true) : 0 < m.size := by
  simp only [contains, get?, find_isSome] at h
  simpa [size] using List.length_pos_of_mem h

theorem size_set (m : GoMap κ ν) (k : κ) (v : ν) :
    (m.set k v).size = if m.contains k then m.size else m.size + 1 := by
  have h := size_delete m k
  simp only [size, set, List.length_append, List.length_singleton] at h ⊢
  split_ifs at h ⊢ with hc
  · have := size_pos_of_contains hc; simp only [size] at this; omega
  · omega

theorem countP_filter_ne {k : κ} {v : ν} (q : κ × ν → Bool) : ∀ (l : List (κ × ν)),
    (l.map Prod.fst).Nodup → find l k = some v →
      (l.filter (·.1 ≠ k)).countP q + (if q (k, v) then 1 else 0) = l.countP q
  | [], _, h => by simp [find] at h
  | (a, b) :: l, hl, h => by
    rw [List.map_cons, List.nodup_cons] at hl
    by_cases ha : a = k
    · subst ha
      obtain rfl : b = v := Option.some.inj (by simpa [find] using h)
      have hna : a ∉ l.map Prod.fst := hl.1
      have hl' : l.filter (·.1 ≠ a) = l := List.filter_eq_self.mpr fun x hx =>
        decide_eq_true fun he => hna (he ▸ List.mem_map_of_mem Prod.fst hx)
      rw [List.filter_cons, hl', List.countP_cons]
      simp
    · simp only [find, if_neg ha] at h
      have ih := countP_filter_ne q l hl.2 h
      simp only [List.filter_cons, ne_eq, ha, not_false_eq_true, decide_True, if_true,
        List.countP_cons] at ih ⊢
      omega

/-- Deleting the key `k` of a binding `(k, v)` counts one binding that passes `q` fewer, when it
passes. -/
theorem countP_delete (m : GoMap κ ν) {k : κ} {v : ν} (h : m.get? k = some v) (q : κ × ν → Bool) :
    (m.delete k).bindings.countP q + (if q (k, v) then 1 else 0) = m.bindings.countP q :=
  countP_filter_ne q m.bindings m.nodup h

/-- Binding a new key counts one more binding that passes `q`, when it passes. -/
theorem countP_set_of_get?_none (m : GoMap κ ν) {k : κ} (h : m.get? k = none) (v : ν)
    (q : κ × ν → Bool) :
    (m.set k v).bindings.countP q = m.bindings.countP q + (if q (k, v) then 1 else 0) := by
  have hk : k ∉ m.bindings.map Prod.fst := by
    rw [← find_isSome]; simpa [get?] using h
  have hd : (m.delete k).bindings = m.bindings := List.filter_eq_self.mpr fun x hx =>
    decide_eq_true fun he => hk (he ▸ List.mem_map_of_mem Prod.fst hx)
  simp [set, hd, List.countP_cons]

end GoMap

/-! ### Running Go code -/

/-- What a call does: it returns `a`, it panics (an index out of range, a failed type assertion, a
nil dereference, a write to a nil map), or, with its loops given a bounded number of iterations,
it is still running. -/
inductive Run (α : Type) where
  | ret (a : α)
  | panic
  | running
  deriving DecidableEq

namespace Run

instance : Monad Run where
  pure := .ret
  bind r f := match r with
    | .ret a => f a
    | .panic => .panic
    | .running => .running

@[simp] theorem pure_eq {α : Type} (a : α) : (pure a : Run α) = .ret a := rfl

@[simp] theorem ret_bind {α β : Type} (a : α) (f : α → Run β) : (Run.ret a >>= f) = f a := rfl

@[simp] theorem panic_bind {α β : Type} (f : α → Run β) : (Run.panic >>= f) = .panic := rfl

@[simp] theorem running_bind {α β : Type} (f : α → Run β) : (Run.running >>= f) = .running := rfl

theorem bind_eq_ret {α β : Type} {r : Run α} {f : α → Run β} {b : β} :
    (r >>= f) = .ret b ↔ ∃ a, r = .ret a ∧ f a = .ret b := by
  cases r <;> simp [bind]

/-- `r.Post Q`: whenever the call returns, what it returns satisfies `Q`. -/
def Post {α : Type} (Q : α → Prop) : Run α → Prop
  | .ret a => Q a
  | _ => True

@[simp] theorem post_ret {α : Type} (Q : α → Prop) (a : α) : (Run.ret a).Post Q = Q a := rfl

@[simp] theorem post_panic {α : Type} (Q : α → Prop) : (Run.panic : Run α).Post Q := trivial

@[simp] theorem post_bind {α β : Type} (Q : β → Prop) (r : Run α) (f : α → Run β) :
    (r >>= f).Post Q = r.Post (fun a => (f a).Post Q) := by
  cases r <;> rfl

/-- Whether the call returns a result that passes the test `P`. -/
def retCheck {α : Type} (r : Run α) (P : α → Bool) : Bool :=
  match r with
  | .ret a => P a
  | _ => false

theorem retCheck_eq_true {α : Type} {r : Run α} {P : α → Bool} (h : r.retCheck P = true) :
    ∃ a, r = .ret a ∧ P a = true := by
  cases r with
  | ret a => exact ⟨a, rfl, h⟩
  | _ => cases h

theorem Post.mono {α : Type} {P Q : α → Prop} (h : ∀ a, P a → Q a) :
    ∀ {r : Run α}, r.Post P → r.Post Q
  | .ret a, hp => h a hp
  | .panic, _ => trivial
  | .running, _ => trivial

theorem post_true {α : Type} (r : Run α) : r.Post fun _ => True := by
  cases r <;> trivial

/-- Whatever a call returns, it returned that. -/
theorem post_self {α : Type} (r : Run α) : r.Post (r = .ret ·) := by
  cases r <;> trivial

theorem Post.and {α : Type} {P Q : α → Prop} :
    ∀ {r : Run α}, r.Post P → r.Post Q → r.Post fun a => P a ∧ Q a
  | .ret _, hp, hq => ⟨hp, hq⟩
  | .panic, _, _ => trivial
  | .running, _, _ => trivial

theorem Post.bind {α β : Type} {P : α → Prop} {Q : β → Prop} {r : Run α} {f : α → Run β}
    (hr : r.Post P) (hf : ∀ a, P a → (f a).Post Q) : (r >>= f).Post Q := by
  rw [post_bind]; exact hr.mono hf

@[simp] theorem post_map {α β : Type} (Q : β → Prop) (f : α → β) (r : Run α) :
    (f <$> r).Post Q = r.Post (Q ∘ f) := by
  cases r <;> rfl

end Run

/-- `sch.SchErrno`, the scheduler's result codes that the handlers return. -/
inductive SchErrno where
  | none | parameter | userTask | unknown | mismatched | internal | notFound | resource | killed
  | powerOff
  deriving DecidableEq, Repr

/-- Writing back the element read at `i` leaves a list as it was. -/
theorem set_getD_self {α : Type} (l : List α) (i : Nat) (d : α) : l.set i (l.getD i d) = l := by
  rcases Nat.lt_or_ge i l.length with hi | hi
  · refine List.ext_getElem (by simp) fun j _ _ => ?_
    rw [List.getElem_set]
    split_ifs with hj
    · subst hj; simp [List.getD_eq_getElem?_getD, List.getElem?_eq_getElem hi]
    · rfl
  · exact List.set_eq_of_length_le hi

/-- `l[i] = v` on a slice: it panics when `i` is out of range. -/
def setIdx {α : Type} (l : List α) (i : Nat) (v : α) : Run (List α) :=
  if i < l.length then .ret (l.set i v) else .panic

end Gyee
