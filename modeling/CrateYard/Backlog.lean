/-! A backlog: what is kept for a follower who reads late. It has room for so many items, and a new one in a full
backlog takes the place of the oldest. -/

namespace CrateYard.Backlog

/-- The items that are kept of those that came since the follower last read: the latest. -/
def keep (room : Nat) (items : List α) : List α :=
  items.drop (items.length - room)

theorem length_keep (room : Nat) (items : List α) : (keep room items).length = min room items.length := by
  simp [keep]
  omega

theorem keep_suffix (room : Nat) (items : List α) : keep room items <:+ items :=
  List.drop_suffix _ _

/-- Nothing is lost while there is room. -/
theorem keep_of_length_le {room : Nat} {items : List α} (h : items.length ≤ room) : keep room items = items := by
  simp [keep, Nat.sub_eq_zero_of_le h]

end CrateYard.Backlog
