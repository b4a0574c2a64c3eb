import SecureInbox.Files.Tree
import SecureInbox.Proofs.Except

/-!
# Files are read as they were written

A path that a file could be written to leads to that file afterwards
(`FileTree.find_put_of_target`), since writing a file changes no directory and only
directories are on the way. So what was written is what is read
(`FileTree.read_of_write`).
-/

namespace SecureInbox.FileTree

/-- A way that can be followed still can be when a file was written. -/
theorem walk_put {t : FileTree} {start place : Place} {names : List String}
    (h : t.walk start names = .ok place) (written : Place) (contents : String) :
    (t.put written contents).walk start names = .ok place := by
  have hdirectory : ∀ p, (t.put written contents).isDirectoryAt p = t.isDirectoryAt p :=
    fun _ => rfl
  fun_induction t.walk start names with
  | case1 => exact h
  | case2 start name rest hthere hstay ih =>
    rw [walk, hdirectory, if_pos hthere, if_pos hstay, ih h]
  | case3 start rest hthere hstay ih =>
    rw [walk, hdirectory, if_pos hthere, if_neg hstay, if_pos rfl, ih h]
  | case5 start name rest hthere hstay hup hlong ih =>
    rw [walk, hdirectory, if_pos hthere, if_neg hstay, if_neg hup, if_neg hlong, ih h]
  -- the others end in an error
  | _ => exact nomatch h

/-- A file that can be opened for writing is found when it was written. -/
theorem find_put_of_target {t : FileTree} {path : String} {place : Place}
    (h : t.target path = .ok place) (contents : String) :
    (t.put place contents).find path = .ok ⟨place, false⟩ ∧ t.isDirectoryAt place = false := by
  obtain ⟨route, hroute, h⟩ := bind_eq_ok_iff.1 h
  split at h
  case isTrue =>
    obtain ⟨_, _, h⟩ := bind_eq_ok_iff.1 h
    exact nomatch h
  case isFalse hfile =>
    obtain ⟨p, hwalk, h⟩ := bind_eq_ok_iff.1 h
    split at h
    case isTrue => exact nomatch h
    case isFalse hdirectory =>
      cases h
      have hsame : (t.put place contents).route path = .ok route := hroute
      rw [find, hsame, ok_bind, walk_put hwalk, ok_bind, Bool.eq_false_iff.2 hfile]
      exact ⟨rfl, Bool.eq_false_iff.2 hdirectory⟩

/-- What was written to a file is read from it. -/
theorem read_of_write {t t' : FileTree} {path contents : String}
    (h : t.write path contents = .ok t') : t'.read path = .ok contents := by
  obtain ⟨place, htarget, h⟩ := bind_eq_ok_iff.1 h
  cases h
  obtain ⟨hfind, hdirectory⟩ := find_put_of_target htarget contents
  have hsame : (t.put place contents).isDirectoryAt place = false := hdirectory
  have hfile : (t.put place contents).fileAt? place = some contents := by
    rw [fileAt?, put, List.lookup_cons_self]
  rw [read, hfind, ok_bind]
  dsimp only
  rw [if_neg (Bool.eq_false_iff.1 hsame), hfile]
  rfl

end SecureInbox.FileTree
