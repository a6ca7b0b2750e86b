import GatewayLauncher.Proofs.Launch
import Mathlib.Data.String.Basic

namespace GatewayLauncher

def Path.parent (p : Path) : Path := { p with parts := p.parts.dropLast }

inductive Upshot where
  | refused (reason : String)
  | broken (text : String)
  | ended (code : Int)
  deriving DecidableEq, Repr

namespace Upshot

def report : Upshot → String
  | .refused reason => "❌ Error: Error executing binary: " ++ reason ++ "\n"
  | .broken _ => ""
  | .ended _ => ""

def ending : Upshot → Ending
  | .refused _ => .exit 1
  | .broken text => .fault (.delegate (.broken text))
  | .ended code => .exit (if code < 0 then 0 else code)

end Upshot

/-- The upshot of a course. A child that never ends has none. -/
def Course.upshot? (c : Course) : Option Upshot :=
  match c.attempt.result with
  | .refused reason => some (.refused reason)
  | .broken text => some (.broken text)
  | .started _ => c.finalCode?.map .ended

/-- The gateway at a path is asked for once, with the arguments as they are, and nothing but the
    banner and the upshot decides what is written and how it ends. -/
structure Outcome.Accounts (o : Outcome) (p : Path) (args : List String) (banner : Option String)
    (u : Upshot) : Prop where
  asked : o.spawns = [(p, args)]
  stdout : o.stdout = match banner with
    | some line => if line = "" then "" else line ++ "\n"
    | none => ""
  stderr : o.stderr = u.report
  ending : o.ending = u.ending

variable {t : FileTree} {name : String} {base p : Path} {c : Course} {u : Upshot}

theorem Path.parent_child (h : IsStep name) (p : Path) : (p.child name).parent = p := by
  rw [child_of_isStep h, parent, List.dropLast_concat]

theorem Path.name_child (h : IsStep name) (p : Path) : (p.child name).name = name := by
  rw [child_of_isStep h, Path.name, List.getLast?_concat, Option.getD_some]

theorem launchAt_of_broken (path : Path) (args : List String) (banner : Option String) {c : Course}
    {text : String} (h : c.attempt.result = .broken text) :
    ∃ calls, (launchAt path args banner c).outcome =
      { stdout := bannerText banner, calls, ending := .fault (.delegate (.broken text)) } := by
  obtain ⟨d, hr⟩ := Delegate.run_of_broken path args h
  exact ⟨d.calls, by simp only [launchAt, hr]⟩

theorem bannerText_eq (banner : Option String) : bannerText banner = match banner with
    | some line => if line = "" then "" else line ++ "\n"
    | none => "" := by
  cases banner with
  | none => rfl
  | some line => exact bannerText_of_line line

theorem printed_spawnRefused (path : Path) (reason : String) :
    (Failure.spawnRefused path reason).printed = (Upshot.refused reason).report := by
  have ht : (Failure.spawnRefused path reason).text = "Error executing binary: " ++ reason := rfl
  have hm : "❌ Error: " ++ "Error executing binary: " = "❌ Error: Error executing binary: " := rfl
  rw [Failure.printed_eq, ht, ← String.append_assoc, hm]
  rfl

theorem accounts_launchAt (hu : c.upshot? = some u) (path : Path) (args : List String)
    (banner : Option String) : (launchAt path args banner c).outcome.Accounts path args banner u := by
  have ha := spawns_launchAt path args banner c
  rw [Course.upshot?] at hu
  split at hu
  · rename_i reason hs
    obtain rfl := Option.some.inj hu
    obtain ⟨calls, ho⟩ := launchAt_of_refused path args banner hs
    rw [ho] at ha ⊢
    exact ⟨ha, bannerText_eq banner, printed_spawnRefused path reason, rfl⟩
  · rename_i text hs
    obtain rfl := Option.some.inj hu
    obtain ⟨calls, ho⟩ := launchAt_of_broken path args banner hs
    rw [ho] at ha ⊢
    exact ⟨ha, bannerText_eq banner, rfl, rfl⟩
  · obtain ⟨code, hc, rfl⟩ := Option.map_eq_some_iff.mp hu
    obtain ⟨calls, ho⟩ := launchAt_of_code path args banner hc
    rw [ho] at ha ⊢
    exact ⟨ha, bannerText_eq banner, rfl, rfl⟩

theorem launch_of_unknown (hn : Prebuilt.isKnown name = false) (t : FileTree) (args : List String)
    (base : Path) (banner : Option String) (c : Course) :
    (launch t name args base banner c).outcome = { ending := .fault (.unknownName
      (Prebuilt.unknownName "Refusing to launch unknown executable" name)) } := by
  simp [launch, locate, hn]

theorem launch_of_not_executable (hn : Prebuilt.isKnown name = true)
    (ha : t.refuses (base.child name) = false) (hx : t.isExecutable (base.child name) = false)
    (args : List String) (banner : Option String) (c : Course) :
    (launch t name args base banner c).outcome = failed "" []
      (if t.isFile (base.child name) then .binaryNotExecutable (base.child name)
        else .binaryMissing (base.child name)) := by
  have hk : t.askable (base.child name) = .ok () := by simp [FileTree.askable, ha]
  rw [launch_of_askable hn hk, hx]
  cases t.isFile (base.child name) <;> rfl

theorem accounts_launch (hu : c.upshot? = some u) (hn : Prebuilt.isKnown name = true)
    (hx : t.isExecutable (base.child name) = true) (args : List String) (banner : Option String) :
    (launch t name args base banner c).outcome.Accounts (base.child name) args banner u := by
  have hl := locate_of_executable hn hx
  have hv : (⟨base.child name, true, true⟩ : Location).verify = .ok () := rfl
  simp only [launch, hl, hv]
  exact accounts_launchAt hu _ args banner

theorem not_refuses_of_isExecutable (hx : t.isExecutable p = true) : t.refuses p = false := by
  obtain ⟨content, hf⟩ := FileTree.isExecutable_iff.mp hx
  simp [FileTree.refuses, hf]

/-- The ending of a launch, for a name that is not in the table and for the three ways in which the
    place of a gateway may be found. -/
theorem ending_launch_cases (hu : c.upshot? = some u) (t : FileTree) (name : String)
    (args : List String) (base : Path) (banner : Option String) :
    let p := base.child name
    let ending := (launch t name args base banner c).outcome.ending
    (Prebuilt.isKnown name = false ∧ ∃ f, ending = .fault f) ∨
    (Prebuilt.isKnown name = true ∧ t.refuses p = true ∧ t.isExecutable p = false ∧
      ∃ f, ending = .fault f) ∨
    (Prebuilt.isKnown name = true ∧ t.refuses p = false ∧ t.isExecutable p = false ∧
      ending = .exit 1) ∨
    (Prebuilt.isKnown name = true ∧ t.refuses p = false ∧ t.isExecutable p = true ∧
      ending = u.ending) := by
  intro p ending
  cases hn : Prebuilt.isKnown name with
  | false =>
    have ho := launch_of_unknown hn t args base banner c
    exact .inl ⟨rfl, _, congrArg Outcome.ending ho⟩
  | true =>
    cases hx : t.isExecutable p with
    | true =>
      have ha := accounts_launch hu hn hx args banner
      exact .inr (.inr (.inr ⟨rfl, not_refuses_of_isExecutable hx, rfl, ha.ending⟩))
    | false =>
      cases hr : t.refuses p with
      | true =>
        have ho := congrArg LaunchReport.outcome (launch_of_refuses hn hr args banner c)
        exact .inr (.inl ⟨rfl, rfl, rfl, _, congrArg Outcome.ending ho⟩)
      | false =>
        have ho := launch_of_not_executable hn hr hx args banner c
        exact .inr (.inr (.inl ⟨rfl, rfl, rfl, congrArg Outcome.ending ho⟩))

theorem ending_launch_fault_iff (hu : c.upshot? = some u) (t : FileTree) (name : String)
    (args : List String) (base : Path) (banner : Option String) :
    (∃ f, (launch t name args base banner c).outcome.ending = .fault f) ↔
      Prebuilt.isKnown name = false ∨ t.refuses (base.child name) = true ∨
        t.isExecutable (base.child name) = true ∧ ∃ text, u = .broken text := by
  obtain ⟨hn, hf⟩ | ⟨hn, hr, hx, hf⟩ | ⟨hn, hr, hx, he⟩ | ⟨hn, hr, hx, he⟩ :=
    ending_launch_cases hu t name args base banner
  · exact iff_of_true hf (.inl hn)
  · exact iff_of_true hf (.inr (.inl hr))
  · rw [he, hn, hr, hx]
    exact iff_of_false (by simp) (by simp)
  · rw [he, hn, hr, hx]
    cases u <;> simp [Upshot.ending]

theorem ending_launch_ne_returned (hu : c.upshot? = some u) (t : FileTree) (name : String)
    (args : List String) (base : Path) (banner : Option String) :
    (launch t name args base banner c).outcome.ending ≠ .returned := by
  obtain ⟨-, f, he⟩ | ⟨-, -, -, f, he⟩ | ⟨-, -, -, he⟩ | ⟨-, -, -, he⟩ :=
    ending_launch_cases hu t name args base banner
  · simp [he]
  · simp [he]
  · simp [he]
  · rw [he]
    cases u <;> simp [Upshot.ending]

/-- For a name that is not in the table a launch does nothing but complain. For one that is, a file
    that is missing or may not be run is reported and nothing else is done; one that may be run is
    asked for once, behind the banner. An error ends the launch exactly if the name is unknown, the
    place cannot be asked about or the attempt to start the gateway breaks down. -/
theorem launch_accounts (hu : c.upshot? = some u) (t : FileTree) (name : String)
    (args : List String) (base : Path) (banner : Option String) :
    let o := (launch t name args base banner c).outcome
    let p := base.child name
    (Prebuilt.isKnown name = false → o = { ending := .fault (.unknownName
      (Prebuilt.unknownName "Refusing to launch unknown executable" name)) }) ∧
    (Prebuilt.isKnown name = true → p.parent = base ∧ p.name = name ∧
      (t.refuses p = true → o = { ending := .fault (.opening .nameTooLong) }) ∧
      (t.refuses p = false → t.isExecutable p = false →
        o.ending = .exit 1 ∧ o.stdout = "" ∧ o.calls = [] ∧
        o.stderr = (if t.isFile p then Failure.binaryNotExecutable p
          else .binaryMissing p).printed) ∧
      (t.isExecutable p = true → o.Accounts p args banner u)) ∧
    ((∃ f, o.ending = .fault f) ↔ Prebuilt.isKnown name = false ∨ t.refuses p = true ∨
      t.isExecutable p = true ∧ ∃ text, u = .broken text) ∧
    o.ending ≠ .returned := by
  intro o p
  refine ⟨fun hn => launch_of_unknown hn t args base banner c, fun hn => ?_,
    ending_launch_fault_iff hu t name args base banner,
    ending_launch_ne_returned hu t name args base banner⟩
  have hs := Prebuilt.isStep_of_isKnown hn
  refine ⟨Path.parent_child hs base, Path.name_child hs base, fun hr => ?_, fun hr hx => ?_,
    fun hx => accounts_launch hu hn hx args banner⟩
  · exact congrArg LaunchReport.outcome (launch_of_refuses hn hr args banner c)
  · have ho : o = _ := launch_of_not_executable hn hr hx args banner c
    rw [ho]
    exact ⟨rfl, rfl, rfl, rfl⟩

def linuxGateway : FileTree where
  working := .directory [("dist", .directory [
    ("ai-gateway-linux", .file { bytes := "gateway".toUTF8 } true)])]

theorem launch_accounts_refused :
    let c : Course := { attempt := { result := .refused "Exec format error" } }
    let o := (launch linuxGateway "ai-gateway-linux" ["-x"] ⟨"", ["dist"]⟩ (some "hello") c).outcome
    o.spawns = [(⟨"", ["dist", "ai-gateway-linux"]⟩, ["-x"])] ∧ o.stdout = "hello\n" ∧
      o.stderr = "❌ Error: Error executing binary: Exec format error\n" ∧ o.ending = .exit 1 := by
  intro c o
  have hu : c.upshot? = some (.refused "Exec format error") := rfl
  have ha := ((launch_accounts hu linuxGateway "ai-gateway-linux" ["-x"] ⟨"", ["dist"]⟩
    (some "hello")).2.1 rfl).2.2.2.2 rfl
  exact ⟨ha.asked, ha.stdout, ha.stderr, ha.ending⟩

def overlongPlace : Path := ⟨"", [String.ofList (List.replicate (Path.nameLimit + 1) 'd')]⟩

theorem utf8ByteSize_replicate (n : Nat) :
    (String.ofList (List.replicate n 'd')).utf8ByteSize = n := by
  rw [String.utf8ByteSize_ofList]
  induction n with
  | zero => rfl
  | succ n ih =>
    rw [List.replicate_succ, String.utf8Len_cons, ih]
    rfl

theorem find_overlongPlace :
    FileTree.empty.find (overlongPlace.child "ai-gateway-linux") = .error .nameTooLong := by
  have hc : overlongPlace.child "ai-gateway-linux" =
      ⟨"", overlongPlace.parts ++ ["ai-gateway-linux"]⟩ := Path.child_of_isStep (by decide) _
  have hn : (overlongPlace.child "ai-gateway-linux").hasNul = false := by
    rw [hc]
    simp [Path.hasNul, overlongPlace]
  have hd : String.ofList (List.replicate (Path.nameLimit + 1) 'd') ≠ ".." := by
    intro h
    have hs := congrArg String.utf8ByteSize h
    rw [utf8ByteSize_replicate] at hs
    exact absurd hs (by decide)
  have hw (steps : List String) :
      FileNode.walk .empty [] .empty (overlongPlace.parts ++ steps) = .error .nameTooLong := by
    simp [overlongPlace, FileNode.walk, FileNode.empty, hd, utf8ByteSize_replicate]
  rw [FileTree.find, hn, hc]
  simp [FileTree.empty, hw]

/-- No gateway is there, and still the launch does not end with a status. -/
theorem overlong_place_gives_no_status :
    ¬∀ (t : FileTree) (name : String) (args : List String) (base : Path) (banner : Option String)
      (c : Course) (u : Upshot), c.upshot? = some u → Prebuilt.isKnown name = true →
      t.isExecutable (base.child name) = false →
      (launch t name args base banner c).outcome.ending = .exit 1 := by
  intro h
  have hn : Prebuilt.isKnown "ai-gateway-linux" = true := by decide
  have hr : FileTree.empty.refuses (overlongPlace.child "ai-gateway-linux") = true := by
    rw [FileTree.refuses, find_overlongPlace]
  have hx : FileTree.empty.isExecutable (overlongPlace.child "ai-gateway-linux") = false := by
    rw [FileTree.isExecutable, find_overlongPlace]
  let c : Course := { attempt := { result := .refused "" } }
  have hu : c.upshot? = some (.refused "") := rfl
  have he := h .empty "ai-gateway-linux" [] overlongPlace none c _ hu hn hx
  rw [launch_of_refuses hn hr] at he
  cases he

end GatewayLauncher
