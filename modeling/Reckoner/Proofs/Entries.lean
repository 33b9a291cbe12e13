import Mathlib.Data.List.Basic

namespace Reckoner.Entries

variable {α : Type} {entries : List (String × α)}

theorem lookup_cons (entry : String × α) (rest : List (String × α)) (name : String) :
    (entry :: rest).lookup name = if name = entry.1 then some entry.2 else rest.lookup name := by
  rw [List.lookup_cons]
  by_cases h : name = entry.1
  case pos => rw [if_pos h, h, beq_self_eq_true]
  case neg => rw [if_neg h, beq_false_of_ne h]

theorem lookup_filter_ne (name other : String) (entries : List (String × α)) :
    (entries.filter (·.1 != name)).lookup other =
      if other = name then none else entries.lookup other := by
  induction entries
  case nil             => simp
  case cons entry _ hi =>
    by_cases he : entry.1 = name
    case pos =>
      rw [List.filter_cons_of_neg (by simp [he]), hi, lookup_cons, he]
      split <;> rfl
    case neg =>
      rw [List.filter_cons_of_pos (by simp [he]), lookup_cons, hi, lookup_cons]
      split <;> split <;> simp_all

theorem filterMap_lookup (h : (entries.map (·.1)).Nodup) :
    (entries.map (·.1)).filterMap (fun name => (entries.lookup name).map (name, ·)) = entries := by
  induction entries
  case nil                => rfl
  case cons entry rest hi =>
    have ⟨hn, hr⟩ := List.nodup_cons.mp h
    rw [List.map_cons, List.filterMap_cons, lookup_cons, if_pos rfl, Option.map_some]
    refine congrArg (entry :: ·) <| (List.filterMap_congr fun name hm => ?_).trans (hi hr)
    have he : name ≠ entry.1 := by
      rintro rfl
      exact hn hm
    rw [lookup_cons, if_neg he]

end Reckoner.Entries
