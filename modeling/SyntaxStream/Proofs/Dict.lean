import SyntaxStream.Dict
import Mathlib.Data.List.Basic

namespace SyntaxStream

variable {α : Type}

theorem insertSorted_of_forall_lt {key : String} {entries : List (String × α)} (value : α)
    (h : ∀ e ∈ entries, e.1 < key) : insertSorted key value entries = entries ++ [(key, value)] := by
  induction entries with
  | nil => rfl
  | cons head rest ih =>
    obtain ⟨k, v⟩ := head
    have hlt : k < key := h (k, v) List.mem_cons_self
    have hnot : ¬ key < k := String.lt_asymm hlt
    have hne : ¬ key = k := by
      rintro rfl
      exact String.lt_irrefl _ hlt
    simp only [insertSorted, hnot, hne, if_false, List.cons_append]
    rw [ih fun e he => h e (List.mem_cons_of_mem _ he)]

namespace Dict

theorem ext {d d' : Dict α} (h : d.entries = d'.entries) : d = d' := by
  cases d
  cases d'
  cases h
  rfl

theorem entries_foldl_insert {d : Dict α} {rest : List (String × α)}
    (h : (d.entries ++ rest).Pairwise fun a b => a.1 < b.1) :
    (rest.foldl (fun d e => d.insert e.1 e.2) d).entries = d.entries ++ rest := by
  induction rest generalizing d with
  | nil => exact (List.append_nil _).symm
  | cons entry rest ih =>
    have hlast : (d.insert entry.1 entry.2).entries = d.entries ++ [entry] := by
      apply insertSorted_of_forall_lt
      intro e he
      exact (List.pairwise_append.mp h).2.2 e he entry List.mem_cons_self
    rw [List.foldl_cons, ih, hlast, List.append_assoc, List.singleton_append]
    rwa [hlast, List.append_assoc, List.singleton_append]

-- Entries in the order of their keys stay as they are.
theorem entries_ofList {entries : List (String × α)}
    (h : entries.Pairwise fun a b => a.1 < b.1) : (ofList entries).entries = entries :=
  entries_foldl_insert h

theorem ofList_entries (d : Dict α) : ofList d.entries = d :=
  ext (entries_ofList d.sorted)

end Dict

end SyntaxStream
