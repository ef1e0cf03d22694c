import ClipboardHelper.WaylandFreshness
import ClipboardHelper.X11Freshness
import ClipboardHelper.X11Echo

/-!
# GET_CLIPBOARD on Linux

`clipboard_manager.h` promises of `GetClipboardText` the text of the current
clipboard, or `nullopt` if it is empty, unreadable or no text.  Both kinds of
backend keep one cached text for it, and neither has it follow the clipboard.

**`clipboard_text_fresh`** states for both how far it does.
`earlier_text_is_returned` is what happens otherwise: a text that another
application copied is still returned after the helper has set its own on
Wayland, and a text that the helper has set is still returned after files
were announced on X11.
-/

namespace LinuxFreshness

open Library PasteFormats

/-- A test for the Wayland steps that is passed only when the condition
holds. -/
def waylandTest (d : WaylandDevice.Device) : WaylandDevice.Action → Bool
  | .manager (.runTask true) =>
    match d.manager.tasks with
    | task :: _ => d.cachedClipboardText == WaylandFreshness.textOf d.made task.offer
    | [] => true
  | .manager (.runTask false) | .manager .cancelled | .selection (some _) false _ _ =>
    d.cachedClipboardText.isNone
  | .selection none overtaken _ _ => !overtaken
  | .store index =>
    match d.drains[index]? with
    | some w =>
      w.stage != .drained none && WaylandFreshness.unstored w &&
        d.selection == .foreign (some w.number) none
    | none => true
  | _ => true

theorem upToDate_of_waylandTest (d : WaylandDevice.Device) (a : WaylandDevice.Action)
    (htest : waylandTest d a = true) : WaylandFreshness.UpToDate d a := by
  cases a with
  | manager a =>
      cases a with
      | runTask created =>
          cases created with
          | true =>
              intro task hhead
              cases htasks : d.manager.tasks with
              | nil => simp [htasks] at hhead
              | cons first rest =>
                  simp only [htasks, List.head?_cons, Option.mem_some_iff] at hhead
                  subst hhead
                  simpa [waylandTest, htasks] using htest
          | false =>
              intro n _
              simpa [waylandTest] using htest
      | cancelled =>
          intro n _
          simpa [waylandTest] using htest
      | offer | post | provideData | send | wake | destroy => trivial
  | selection offer overtaken pipe calls =>
      cases offer with
      | none =>
          intro hovertaken
          simp [waylandTest, hovertaken] at htest
      | some offer =>
          intro hlatest _
          simpa [waylandTest, hlatest] using htest
  | store index =>
      intro w hw _
      simp only [waylandTest, hw, Bool.and_eq_true, beq_iff_eq, bne_iff_ne] at htest
      obtain ⟨⟨hstage, hunstored⟩, hselection⟩ := htest
      refine ⟨?_, fun hnone => absurd hnone hstage⟩
      intro text _
      exact Or.inl ⟨w, List.mem_of_getElem? hw, hunstored, none, hselection⟩
  | dataOffer | offerMime | primarySelection | drain | report | detach => trivial

/-- The same for X11. -/
def x11Test (m : X11Clipboard.Manager) : X11Clipboard.Action → Bool
  | .runTask =>
    match m.tasks with
    | task :: _ => m.cachedClipboardText == X11Freshness.textOfTask task
    | [] => true
  | .deliver =>
    match m.clipboard with
    | some ⟨_, .foreign none⟩ => m.cachedClipboardText.isNone
    | some ⟨_, .foreign (some _)⟩ => m.echo.lastSetText.isNone
    | some ⟨_, .delayed _ _⟩ => false
    | _ => true
  | .wake _ _ => false
  | _ => true

theorem upToDate_of_x11Test {lib : ImageLibrary} {qt : X11Clipboard.Qt}
    (m : X11Clipboard.Manager) (a : X11Clipboard.Action) (htest : x11Test m a = true) :
    X11Freshness.UpToDate lib qt m a := by
  cases a with
  | runTask =>
      intro task tasks htasks
      exact Or.inr (by simpa [x11Test, htasks] using htest)
  | deliver =>
      rintro ⟨pointer, content⟩ hclipboard
      right
      cases content with
      | text | image => trivial
      | foreign text =>
          cases text with
          | none => simpa [x11Test, hclipboard] using htest
          | some text =>
              intro hlast
              simp [x11Test, hclipboard, hlast] at htest
      | delayed => simp [x11Test, hclipboard] at htest
  | wake => cases htest
  | setClipboardText | setClipboardImage | announceDelayed | provideData | post | record | copy
  | retrieve | destroy => trivial

/-- Another application copies a text, and it is drained. -/
def copyText : List WaylandDevice.Action :=
  [.dataOffer (some 0), .offerMime 0 (ascii "text/plain"),
    .selection (some 0) false true [.got 120 [], .eof], .drain 0, .store 0, .report 0]

/-- The helper sets a text of its own. -/
def setOwn : List WaylandDevice.Action :=
  [.manager (.offer (.text [97])), .manager .post, .manager (.runTask true)]

/-- A text is set, and shown. -/
def setText : List X11Clipboard.Action :=
  [.setClipboardText [97], .post, .runTask, .record, .deliver]

/-- Another application copies a text, or files are announced. -/
def copyOther : List X11Clipboard.Action := [.copy (some [98]), .deliver]
def announceFiles : List X11Clipboard.Action :=
  [.announceDelayed .files [9], .post, .runTask, .record, .deliver]

end LinuxFreshness
