/-
  ScreenInspector/Proofs/DeviceEndpoints.lean
  ===========================================
  **The addresses of a device's endpoints.**

  An address is checked as it is written, and the endpoints lie below it without the slashes at its
  end.  Taking slashes away can take those of the scheme: an address that is a scheme and slashes
  passes the check, and what is left of it is the name of the scheme and a colon.  Of the addresses
  that pass, these are the only ones whose endpoints are no web addresses: the others name a host,
  and a host keeps the scheme in front of it whole (`isWebUrl_of_hasHost`).
-/
import ScreenInspector.Device.Configuration
import ScreenInspector.Proofs.Outcomes
import Mathlib.Data.List.DropRight

namespace ScreenInspector

/-- Not only slashes follow the scheme. -/
def HasHost (url : String) : Prop :=
  ∃ scheme ∈ urlSchemes, ∃ rest, url.toList = scheme.toList ++ rest ∧ ∃ c ∈ rest, c ≠ '/'

theorem isWebUrl_iff {url : String} :
    isWebUrl url = true ↔ ∃ scheme ∈ urlSchemes, scheme.toList <+: url.toList := by
  simp only [isWebUrl, List.any_eq_true, List.isPrefixOf_iff_prefix]

theorem isWebUrl_append {url : String} (tail : String) (h : isWebUrl url = true) :
    isWebUrl (url ++ tail) = true := by
  obtain ⟨scheme, hscheme, hprefix⟩ := isWebUrl_iff.mp h
  refine isWebUrl_iff.mpr ⟨scheme, hscheme, ?_⟩
  rw [String.toList_append]
  exact hprefix.trans (List.prefix_append _ _)

/-! ### Slashes at the end -/

def isSlash (c : Char) : Bool :=
  c == '/'

theorem toList_withoutFinalSlashes (url : String) :
    (withoutFinalSlashes url).toList = url.toList.rdropWhile isSlash := by
  rw [withoutFinalSlashes, String.toList_ofList]
  rfl

/-- Nothing but slashes is taken away. -/
theorem exists_finalSlashes (url : String) :
    ∃ n, url.toList = (withoutFinalSlashes url).toList ++ List.replicate n '/' := by
  refine ⟨(url.toList.rtakeWhile isSlash).length, ?_⟩
  have hslashes : url.toList.rtakeWhile isSlash =
      List.replicate (url.toList.rtakeWhile isSlash).length '/' := by
    rw [List.eq_replicate_iff]
    constructor
    · rfl
    · intro c hc
      have hslash : isSlash c = true := List.mem_rtakeWhile_imp hc
      exact eq_of_beq hslash
  rw [toList_withoutFinalSlashes, ← hslashes, List.rdropWhile_append_rtakeWhile]

theorem getLast?_withoutFinalSlashes (url : String) :
    (withoutFinalSlashes url).toList.getLast? ≠ some '/' := by
  rw [toList_withoutFinalSlashes]
  by_cases hnil : url.toList.rdropWhile isSlash = []
  · rw [hnil]
    simp
  · have hlast := List.rdropWhile_last_not isSlash url.toList hnil
    rw [List.getLast?_eq_getLast_of_ne_nil hnil]
    intro heq
    rw [Option.some.inj heq] at hlast
    exact hlast rfl

/-- **A host keeps its scheme.** -/
theorem isWebUrl_of_hasHost {url : String} (h : HasHost url) :
    isWebUrl (withoutFinalSlashes url) = true := by
  obtain ⟨scheme, hscheme, rest, hurl, c, hc, hslash⟩ := h
  obtain ⟨n, hbase⟩ := exists_finalSlashes url
  refine isWebUrl_iff.mpr ⟨scheme, hscheme, ?_⟩
  rw [hurl] at hbase
  rcases List.append_eq_append_iff.mp hbase with ⟨more, hmore, -⟩ | ⟨more, -, hslashes⟩
  · exact ⟨more, hmore.symm⟩
  · -- The slashes that were taken away would begin in the scheme, and the host is no slash.
    have hmem : c ∈ List.replicate n '/' := by
      rw [hslashes]
      exact List.mem_append_right _ hc
    exact absurd (List.eq_of_mem_replicate hmem) hslash

/-- Of a scheme with slashes behind it the name and the colon are left. -/
theorem toList_of_not_hasHost {url : String} (hurl : isWebUrl url = true) (h : ¬ HasHost url) :
    (withoutFinalSlashes url).toList = "http:".toList ∨
      (withoutFinalSlashes url).toList = "https:".toList := by
  obtain ⟨scheme, hscheme, rest, hrest⟩ := isWebUrl_iff.mp hurl
  have hslashes : ∀ c ∈ rest.reverse, isSlash c = true := by
    intro c hc
    by_contra hother
    refine h ⟨scheme, hscheme, rest, hrest.symm, c, List.mem_reverse.mp hc, ?_⟩
    exact fun heq => hother (beq_iff_eq.mpr heq)
  have hbase : (withoutFinalSlashes url).toList = scheme.toList.rdropWhile isSlash := by
    rw [toList_withoutFinalSlashes, ← hrest, List.rdropWhile, List.reverse_append,
      List.dropWhile_append_of_pos hslashes]
    rfl
  rw [hbase]
  rcases List.mem_cons.mp hscheme with rfl | hscheme
  · left
    rfl
  · rw [List.mem_singleton.mp hscheme]
    right
    rfl

section Address

variable {url : String} (hurl : isWebUrl url = true)

include hurl

theorem isWebUrl_withoutFinalSlashes_iff :
    isWebUrl (withoutFinalSlashes url) = true ↔ HasHost url := by
  constructor
  · intro hweb
    by_contra hnone
    rw [isWebUrl, urlSchemes] at hweb
    rcases toList_of_not_hasHost hurl hnone with hname | hname
    · rw [hname] at hweb
      cases hweb
    · rw [hname] at hweb
      cases hweb
  · exact isWebUrl_of_hasHost

/-- One slash below the name of a scheme does not make up for the two that were taken away. -/
theorem isWebUrl_below_iff {below : String} {c : Char} {tail : List Char} (hc : c ≠ '/')
    (hbelow : below.toList = '/' :: c :: tail) :
    isWebUrl (withoutFinalSlashes url ++ below) = true ↔ HasHost url := by
  constructor
  · intro hweb
    by_contra hnone
    rw [isWebUrl, urlSchemes, String.toList_append, hbelow] at hweb
    rcases toList_of_not_hasHost hurl hnone with hname | hname
    · rw [hname] at hweb
      simp [List.isPrefixOf, hc.symm] at hweb
    · rw [hname] at hweb
      simp [List.isPrefixOf, hc.symm] at hweb
  · intro hhost
    exact isWebUrl_append below (isWebUrl_of_hasHost hhost)

end Address

/-! ### Endpoints -/

/-- **The endpoints of accepted settings** lie below the address without its final slashes, which
does not end in a slash.  They are web addresses, and so is what they lie below, iff the address
names a host. -/
theorem endpoints_of_accepted {s : DeviceSettings} {e : Endpoints} (h : s.endpoints = .ok e) :
    e = { tree := withoutFinalSlashes s.baseUrl ++ "/inspector/session/" ++ s.sessionId ++ "/tree"
          screenshot := withoutFinalSlashes s.baseUrl ++ "/inspector/session/" ++ s.sessionId ++
            "/screenshot"
          tap := withoutFinalSlashes s.baseUrl ++ "/wd/hub/session/" ++ s.sessionId ++ "/tap/2" } ∧
    (∃ n, s.baseUrl.toList = (withoutFinalSlashes s.baseUrl).toList ++ List.replicate n '/') ∧
    (withoutFinalSlashes s.baseUrl).toList.getLast? ≠ some '/' ∧
    ∀ url ∈ [withoutFinalSlashes s.baseUrl, e.tree, e.screenshot, e.tap],
      isWebUrl url = true ↔ HasHost s.baseUrl := by
  obtain ⟨⟨⟩, hvalid, he⟩ := bind_eq_ok_iff.mp h
  obtain rfl := Except.ok.inj he
  have haddress : isWebUrl s.baseUrl = true := by
    by_contra hother
    rw [DeviceSettings.validate, Bool.eq_false_iff.mpr hother] at hvalid
    cases hvalid
  refine ⟨rfl, exists_finalSlashes s.baseUrl, getLast?_withoutFinalSlashes s.baseUrl, ?_⟩
  have hinspector : ∀ tail : String,
      isWebUrl (withoutFinalSlashes s.baseUrl ++ "/inspector/session/" ++ s.sessionId ++ tail) =
        true ↔ HasHost s.baseUrl := by
    intro tail
    rw [String.append_assoc, String.append_assoc]
    apply isWebUrl_below_iff haddress (show 'i' ≠ '/' by decide)
    rw [String.toList_append]
    rfl
  simp only [List.forall_mem_cons, List.not_mem_nil, false_imp_iff, implies_true, and_true]
  refine ⟨isWebUrl_withoutFinalSlashes_iff haddress, hinspector "/tree", hinspector "/screenshot", ?_⟩
  show isWebUrl (withoutFinalSlashes s.baseUrl ++ "/wd/hub/session/" ++ s.sessionId ++ "/tap/2") =
    true ↔ _
  rw [String.append_assoc, String.append_assoc]
  apply isWebUrl_below_iff haddress (show 'w' ≠ '/' by decide)
  rw [String.toList_append]
  rfl

/-- A device at an address that ends in slashes. -/
def slashedDevice : DeviceSettings :=
  { baseUrl := "http:" ++ "//device:4444//", sessionId := "abc" }

/-- The endpoints of a device with a host are web addresses. -/
theorem endpoints_slashedDevice :
    ∃ e, slashedDevice.endpoints = .ok e ∧
      e.tree = "http:" ++ "//device:4444/inspector/session/abc/tree" ∧
      ∀ url ∈ [e.tree, e.screenshot, e.tap], isWebUrl url = true := by
  refine ⟨_, rfl, rfl, ?_⟩
  obtain ⟨-, -, -, hweb⟩ := endpoints_of_accepted (s := slashedDevice) rfl
  have hhost : HasHost slashedDevice.baseUrl :=
    ⟨"http:" ++ "//", List.mem_cons_self, "device:4444//".toList, rfl, 'd', by decide, by decide⟩
  intro url hurl
  exact (hweb url (List.mem_cons_of_mem _ hurl)).mpr hhost

/-- Settings without a host. -/
def hostlessDevice : DeviceSettings :=
  { baseUrl := "http:" ++ "//", sessionId := "abc" }

/-- **Settings without a host are accepted**, and no scheme is left in their endpoints. -/
theorem endpoints_hostlessDevice :
    hostlessDevice.endpoints = .ok
      { tree := "http:/inspector/session/abc/tree"
        screenshot := "http:/inspector/session/abc/screenshot"
        tap := "http:/wd/hub/session/abc/tap/2" } ∧
    isWebUrl (withoutFinalSlashes hostlessDevice.baseUrl) = false ∧
    isWebUrl "http:/inspector/session/abc/tree" = false := by
  refine ⟨rfl, rfl, rfl⟩

end ScreenInspector
