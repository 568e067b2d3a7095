import Mathlib.Order.Defs.Unbundled
import Mathlib.Tactic

/-! A set kept in the order of a comparison, as `std::set` is. Two elements neither of
which comes before the other count as one, and the set keeps the one it got first. -/

namespace Sponge

variable {α : Type} (lt : α → α → Prop)

structure OrderedSet where
  entries : List α
  sorted : entries.Pairwise lt

namespace OrderedSet

def empty : OrderedSet lt := ⟨[], List.Pairwise.nil⟩

variable [DecidableRel lt]

def insertEntry (a : α) : List α → List α
  | [] => [a]
  | b :: l => if lt a b then a :: b :: l else if lt b a then b :: insertEntry a l else b :: l

theorem mem_of_mem_insertEntry {a x : α} {l : List α} (h : x ∈ insertEntry lt a l) :
    x = a ∨ x ∈ l := by
  induction l with
  | nil => exact .inl (List.mem_singleton.mp h)
  | cons b l ih =>
    simp only [insertEntry] at h
    split at h
    · exact List.mem_cons.mp h
    · split at h
      · rcases List.mem_cons.mp h with rfl | h
        · exact .inr List.mem_cons_self
        · exact (ih h).imp_right (List.mem_cons_of_mem b)
      · exact .inr h

theorem mem_insertEntry_of_mem {a x : α} {l : List α} (h : x ∈ l) : x ∈ insertEntry lt a l := by
  induction l with
  | nil => cases h
  | cons b l ih =>
    simp only [insertEntry]
    split
    · exact List.mem_cons_of_mem a h
    · split
      · rcases List.mem_cons.mp h with rfl | h
        · exact List.mem_cons_self
        · exact List.mem_cons_of_mem b (ih h)
      · exact h

/-- The new element is in, or one that counts as the same was. -/
theorem insertEntry_covers (a : α) (l : List α) :
    ∃ b ∈ insertEntry lt a l, b = a ∨ ¬lt a b ∧ ¬lt b a := by
  induction l with
  | nil => exact ⟨a, List.mem_singleton_self a, .inl rfl⟩
  | cons b l ih =>
    simp only [insertEntry]
    split
    · exact ⟨a, List.mem_cons_self, .inl rfl⟩
    · split
      · obtain ⟨c, hc, h⟩ := ih
        exact ⟨c, List.mem_cons_of_mem b hc, h⟩
      · exact ⟨b, List.mem_cons_self, .inr ⟨‹_›, ‹_›⟩⟩

/-- The first element once `a` is in. -/
def earlier (first : Option α) (a : α) : Option α :=
  match first with
  | none => some a
  | some b => if lt a b then some a else some b

theorem head?_insertEntry (a : α) (l : List α) :
    (insertEntry lt a l).head? = earlier lt l.head? a := by
  cases l with
  | nil => rfl
  | cons b l =>
    simp only [insertEntry, earlier, List.head?_cons]
    split
    · rfl
    · split <;> rfl

variable [IsTrans α lt]

theorem earlier_some (a : α) (l : List α) :
    ∃ m, l.foldl (earlier lt) (some a) = some m ∧ (m = a ∨ lt m a) := by
  induction l generalizing a with
  | nil => exact ⟨a, rfl, .inl rfl⟩
  | cons b l ih =>
    simp only [List.foldl_cons, earlier]
    split
    case isTrue hba =>
      obtain ⟨m, hm, hle⟩ := ih b
      refine ⟨m, hm, .inr ?_⟩
      rcases hle with rfl | hlt
      · exact hba
      · exact IsTrans.trans m b a hlt hba
    case isFalse => exact ih a

/-- An element `c` in front of all others is the first until something earlier comes, and
from then on makes no difference. -/
theorem foldl_earlier {c : α} (hco : ∀ a b, lt a c → lt a b ∨ lt b c) {first : Option α}
    (hfirst : ∀ b ∈ first, ¬lt b c) (l : List α) :
    (∃ m, l.foldl (earlier lt) (some c) = some m ∧ l.foldl (earlier lt) first = some m ∧
      lt m c) ∨
    l.foldl (earlier lt) (some c) = some c ∧ ∀ m ∈ l.foldl (earlier lt) first, ¬lt m c := by
  induction l generalizing first with
  | nil => exact .inr ⟨rfl, hfirst⟩
  | cons a l ih =>
    simp only [List.foldl_cons]
    by_cases hac : lt a c
    · have hnew : earlier lt first a = some a := by
        cases first with
        | none => rfl
        | some b => exact if_pos ((hco a b hac).resolve_right (hfirst b rfl))
      obtain ⟨m, hm, hle⟩ := earlier_some lt a l
      rw [hnew, earlier, if_pos hac]
      refine .inl ⟨m, hm, hm, ?_⟩
      rcases hle with rfl | hlt
      · exact hac
      · exact IsTrans.trans m a c hlt hac
    · have hnew : ∀ b ∈ earlier lt first a, ¬lt b c := by
        intro b hb
        cases first with
        | none =>
          cases hb
          exact hac
        | some b' =>
          simp only [earlier] at hb
          split at hb
          · cases hb
            exact hac
          · cases hb
            exact hfirst b rfl
      rw [show earlier lt (some c) a = some c from if_neg hac]
      exact ih hnew

theorem pairwise_insertEntry (a : α) {l : List α} (h : l.Pairwise lt) :
    (insertEntry lt a l).Pairwise lt := by
  induction l with
  | nil => exact List.pairwise_singleton lt a
  | cons b l ih =>
    obtain ⟨hb, hl⟩ := List.pairwise_cons.mp h
    simp only [insertEntry]
    split
    case isTrue hab =>
      refine List.pairwise_cons.mpr ⟨?_, h⟩
      intro x hx
      rcases List.mem_cons.mp hx with rfl | hx
      · exact hab
      · exact IsTrans.trans a b x hab (hb x hx)
    case isFalse hab =>
      split
      case isTrue hba =>
        refine List.pairwise_cons.mpr ⟨?_, ih hl⟩
        intro x hx
        rcases mem_of_mem_insertEntry lt hx with rfl | hx
        · exact hba
        · exact hb x hx
      case isFalse => exact h

def insert (a : α) (s : OrderedSet lt) : OrderedSet lt :=
  ⟨insertEntry lt a s.entries, pairwise_insertEntry lt a s.sorted⟩

omit [IsTrans α lt] in
theorem insertEntry_of_lt {a : α} {l : List α} (h : ∀ x ∈ l, lt a x) :
    insertEntry lt a l = a :: l := by
  cases l with
  | nil => rfl
  | cons b l => exact if_pos (h b List.mem_cons_self)

/-- A condition that does not tell equivalent elements apart can be applied before or
after an insertion. -/
theorem filter_insertEntry {p : α → Bool} (hp : ∀ a b, ¬lt a b → ¬lt b a → p a = p b) (a : α)
    {l : List α} (h : l.Pairwise lt) :
    (insertEntry lt a l).filter p =
      if p a then insertEntry lt a (l.filter p) else l.filter p := by
  induction l with
  | nil => cases hpa : p a <;> simp [insertEntry, hpa]
  | cons b l ih =>
    obtain ⟨hb, hl⟩ := List.pairwise_cons.mp h
    by_cases hab : lt a b
    · have hall : ∀ x ∈ (b :: l).filter p, lt a x := by
        intro x hx
        rcases List.mem_cons.mp (List.mem_of_mem_filter hx) with rfl | hx
        · exact hab
        · exact IsTrans.trans a b x hab (hb x hx)
      rw [insertEntry_of_lt lt hall, insertEntry, if_pos hab, List.filter_cons]
    · by_cases hba : lt b a
      · rw [insertEntry, if_neg hab, if_pos hba, List.filter_cons, ih hl, List.filter_cons]
        cases p b with
        | false => rfl
        | true =>
          cases p a with
          | false => rfl
          | true => simp [insertEntry, hab, hba]
      · -- `b` counts as `a`: the set is unchanged, and the condition sees no difference
        rw [insertEntry, if_neg hab, if_neg hba, List.filter_cons, ← hp a b hab hba]
        cases p a with
        | false => rfl
        | true => simp [insertEntry, hab, hba]

end OrderedSet

end Sponge
