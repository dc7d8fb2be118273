import Envelope.Proofs.Faithful
import Envelope.Proofs.Growth

/-!
# What was given out is kept

A world stands behind what it has answered (`World.Backs`): whether a program
runs alone or others have their turn in between, each request was answered by a
state that has only grown since.  So the records and the clients that were given
out are still there.
-/

namespace Envelope
namespace World

open Program Engine KeyRing

variable {σ : Type} {w : World Store σ} {t : Trace} {ring : KeyRing} {kek : Kek}
  {subject : String} {version : Option UInt32} {dek : Dek} {config : Properties} {url : String}
  {handle : Kms.Handle}

/-- Each exchange of a trace was answered by a world that has grown into this
one. -/
def Backs (w : World Store σ) (t : Trace) : Prop :=
  ∀ x ∈ t, ∃ u, x.2 = ((answer x.1).run u).1 ∧ World.Extends ((answer x.1).run u).2 w

theorem Backs.getKek_stored {name : String} {deleted : Bool} (h : w.Backs t)
    (hmem : called (.getKek name deleted) (.ok kek) ∈ t) :
    w.registry.getKek name deleted = .ok kek := by
  obtain ⟨u, hanswer, hlater⟩ := h _ hmem
  have hget : u.registry.getKek name deleted = .ok kek := hanswer.symm
  exact hlater.registry.getKek hget

theorem Backs.registerKek_stored {request : KekRequest} (h : w.Backs t)
    (hmem : called (.registerKek request) (.ok kek) ∈ t) :
    w.registry.getKek request.name false = .ok kek := by
  obtain ⟨u, hanswer, hlater⟩ := h _ hmem
  have hregister : (u.registry.registerKek request u.clock).1 = .ok kek := hanswer.symm
  have hkept : ((u.registry.registerKek request u.clock).2).Extends w.registry := hlater.registry
  have hget := hkept.keks (Store.get?_of_registerKek hregister)
  obtain ⟨-, rfl⟩ := Store.registerKek_eq_ok hregister
  exact Store.getKek_eq_ok_iff.mpr ⟨hget, .inr rfl⟩

/-- A key-encryption key that was given out is kept. -/
theorem Backs.kek_stored (h : w.Backs t) (hkek : ring.KekGivenOut t kek) :
    w.registry.keks.get? ring.kekName = some kek := by
  cases hkek with
  | found deleted hmem => exact (Store.getKek_eq_ok_iff.mp (h.getKek_stored hmem)).1
  | registered request hname hmem =>
    have hget := h.registerKek_stored hmem
    rw [hname] at hget
    exact (Store.getKek_eq_ok_iff.mp hget).1

theorem Backs.getDek_stored {id : DekId} {deleted : Bool} (h : w.Backs t)
    (hmem : called (.getDek id deleted) (.ok dek) ∈ t) :
    dek ∈ w.registry.file (Store.pathOf id) ∧
      (id.version ≠ Dek.latestVersion → dek.version = id.version) := by
  obtain ⟨u, hanswer, hlater⟩ := h _ hmem
  have hget : u.registry.getDek id deleted = .ok dek := hanswer.symm
  obtain ⟨hfile, hversion⟩ := Store.mem_of_getDek hget
  exact ⟨hlater.registry.files _ hfile, hversion⟩

theorem Backs.registerDek_stored {kekName : String} {request : DekRequest} (h : w.Backs t)
    (hmem : called (.registerDek kekName request) (.ok dek) ∈ t) :
    dek ∈ w.registry.file ⟨kekName, request.subject, request.algorithm⟩ ∧
      dek.version = request.version := by
  obtain ⟨u, hanswer, hlater⟩ := h _ hmem
  have houtcome := answer_registerDek u kekName request
  rw [← hanswer] at houtcome
  generalize hnext : ((answer (.registry (.registerDek kekName request))).run u).2.registry =
    next at houtcome
  have hkept : next.Extends w.registry := hnext ▸ hlater.registry
  cases houtcome with
  | added h hnew hmaterial =>
    exact ⟨hkept.files _ (Store.mem_file_addDek.mpr (.inl ⟨rfl, rfl⟩)), rfl⟩

/-- A data key that was given out is kept in its file, the first version unless
keys rotate. -/
theorem Backs.dek_stored (h : w.Backs t) (hdek : ring.GivenOut subject version t dek) :
    dek ∈ w.registry.file ⟨ring.kekName, subject, ring.cryptor.format⟩ ∧
      (ring.rotates = false → version = none → dek.version = firstVersion) := by
  cases hdek with
  | found deleted hmem =>
    obtain ⟨hfile, hversion⟩ := h.getDek_stored hmem
    refine ⟨hfile, ?_⟩
    rintro - rfl
    exact hversion (show firstVersion ≠ Dek.latestVersion by decide)
  | registered request hsubject halgorithm hfirst hmem =>
    obtain ⟨hfile, hversion⟩ := h.registerDek_stored hmem
    rw [hsubject, halgorithm] at hfile
    exact ⟨hfile, fun hfixed _ => hversion.trans (hfirst hfixed)⟩

/-- A handle that was handed out is kept. -/
theorem Backs.handle_published (h : w.Backs t) (hhandle : handed config url (.ok handle) ∈ t) :
    w.directory.Published url handle := by
  obtain ⟨u, hanswer, hlater⟩ := h _ hhandle
  exact (Kms.Directory.published_of_handle (k := u.directory) hanswer.symm).mono hlater.directory

end World
end Envelope
