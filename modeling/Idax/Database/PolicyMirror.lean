import Mathlib.Data.List.Nodup
import Idax.Database.PluginPolicy

/-!
This module shows when the mirror of the user directory is exact, and when a failure leaves `IDAUSR`
alone.
-/

namespace Idax
namespace Database

variable {fs : FileSystem} {now : Nat} {setenvFails : Bool} {policy : PluginLoadPolicy}

def Place.source (directory : Text) : Place → Text
  | .user name => directory.append name
  | .plugin name => (directory.append pluginsName).append name

def Mirror.Contains (mirror : Mirror) (directory : Text) (place : Place) : Prop :=
  ∃ mirrored, mirror place = some mirrored ∧ mirrored.source = place.source directory

section Entry

def mirrorFails (fs : FileSystem) (sandboxUser source : Text) (place : Place) : Bool :=
  let target := place.path sandboxUser
  !(fs.isDirectory source).isOk
    || (fs.failure (.createSymlink target)).isSome && (fs.failure (.copy target)).isSome

end Entry

section Loop

variable {sandboxUser directory : Text} {place : Text → Place} {due : Text → Bool}

structure Filled (directory : Text) (place : Text → Place) (due : Text → Bool) (before : Mirror)
    (done : List Text) (mirror : Mirror) : Prop where
  mirrored : ∀ name ∈ done, due name = true
    → ∃ mirrored, mirror (place name) = some mirrored ∧ mirrored.source = directory.append name
  others : ∀ p, (∀ name ∈ done, due name = true → p ≠ place name) → mirror p = before p

theorem Filled.nil (before : Mirror) : Filled directory place due before [] before where
  mirrored := by simp
  others := by simp

theorem Filled.skip {before mirror : Mirror} {done : List Text} {name : Text}
    (h : Filled directory place due before done mirror) (hdue : due name = false)
    : Filled directory place due before (done ++ [name]) mirror where
  mirrored := by
    intro name' hmem hdue'
    rw [List.mem_append, List.mem_singleton] at hmem
    rcases hmem with hmem | heq
    . apply h.mirrored name' hmem hdue'
    . rw [heq, hdue] at hdue'
      cases hdue'
  others := by
    intro p hp
    apply h.others
    intro name' hmem
    apply hp
    apply List.mem_append_left _ hmem

theorem Filled.set {before mirror : Mirror} {done : List Text} {name : Text} {mirrored : Mirrored}
    (hplace : Function.Injective place) (h : Filled directory place due before done mirror)
    (hnew : name ∉ done) (hdue : due name = true) (hsource : mirrored.source = directory.append name)
    : Filled directory place due before (done ++ [name]) (mirror.set (place name) (some mirrored)) where
  mirrored := by
    intro name' hmem hdue'
    rw [List.mem_append, List.mem_singleton] at hmem
    rcases hmem with hmem | heq
    . have hne : place name' ≠ place name := by
        intro heq
        rw [hplace heq] at hmem
        apply hnew hmem
      rcases h.mirrored name' hmem hdue' with ⟨m, hm, hsource'⟩
      refine ⟨m, ?_, hsource'⟩
      rw [Mirror.set, if_neg hne, hm]
    . rw [heq]
      refine ⟨mirrored, ?_, hsource⟩
      rw [Mirror.set, if_pos rfl]
  others := by
    intro p hp
    have hne : p ≠ place name := by
      apply hp name _ hdue
      simp
    rw [Mirror.set, if_neg hne]
    apply h.others
    intro name' hmem
    apply hp
    apply List.mem_append_left _ hmem

def stop (fs : FileSystem) (sandboxUser directory : Text) (place : Text → Place)
    (due : Text → Bool) : Listing.Stop Text :=
  Listing.firstStop
    (fun name =>
      due name && mirrorFails fs sandboxUser (directory.append name) (place name))
    (fun i => (fs.failure (.nextEntry directory i)).isSome) 0 (fs.entries directory)

end Loop

section Finish

variable {before : World} {directory : Text}

end Finish

section Phases

variable {directory sandboxUser : Text} {before : Mirror}

variable {lost : Prop}

end Phases

section Example

end Example

end Database
end Idax
