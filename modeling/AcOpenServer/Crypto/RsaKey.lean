import AcOpenServer.Runtime

namespace AcOpenServer
open Library
set_option autoImplicit true

/-- A key of the OpenSSL wrapper; the private part is missing in a public key. -/
structure RSA (Public Private : Type) where
  publicPart : Public
  privatePart : Option Private

/-- The functions of the wrapper that write and read keys as PEM text; those that fail throw. -/
structure RsaWrapper (Public Private : Type) where
  writePrivateKey : RSA Public Private → Option String
  fromPublicKey : String → Option Public
  fromPrivateKey : String → Option (Public × Private)

/-- A private key is written from both parts; its loader gives them back and the public one does
not accept them. -/
structure RsaWrapper.Lawful {Public Private : Type} (rsa : RsaWrapper Public Private) :
    Prop where
  writePrivateKey : ∀ n d, ∃ pem, rsa.writePrivateKey ⟨n, some d⟩ = some pem ∧
    rsa.fromPrivateKey pem = some (n, d) ∧ rsa.fromPublicKey pem = none

/-- The text of the file at each path, if there is one. -/
abbrev Files := String → Option String

def Files.set (path text : String) (files : Files) : Files :=
  Function.update files path (some text)

structure RSAKey (Public Private : Type) where
  rsaInstance : RSA Public Private
  isPublicKey : Bool
  isPublicKey_eq : isPublicKey = rsaInstance.privatePart.isNone

namespace Bio

/-- `BIO.File(path, "w+")` empties the file. -/
def create (path : String) : EStateM Exn Files Unit :=
  modify (Files.set path "")

/-- Append what the wrapper writes, if it does not fail. -/
def write (path : String) (pem : Option String) : EStateM Exn Files Unit :=
  match pem with
  | some pem => modify fun files => files.set path ((files path).getD "" ++ pem)
  | none => throw .openSsl

/-- `BIO.File(path, "r+")` and what is read from it. -/
def read (path : String) : EStateM Exn Files String := do
  match (← get) path with
  | some text => return text
  | none => throw .openSsl

end Bio

namespace RSAKey

variable {Public Private : Type}

def ofPublic (n : Public) : RSAKey Public Private := ⟨⟨n, none⟩, true, rfl⟩

def ofPrivate (n : Public) (d : Private) : RSAKey Public Private := ⟨⟨n, some d⟩, false, rfl⟩

/-- `generated` is the key `GenerateKeys` made. -/
def generate (generated : Public × Private) : RSAKey Public Private :=
  ofPrivate generated.1 generated.2

variable (rsa : RsaWrapper Public Private)

def loadPublicKeyFromFile (path : String) : EStateM Exn Files (RSAKey Public Private) := do
  match rsa.fromPublicKey (← Bio.read path) with
  | some n => return ofPublic n
  | none => throw .openSsl

def loadPrivateKeyFromFile (path : String) : EStateM Exn Files (RSAKey Public Private) := do
  match rsa.fromPrivateKey (← Bio.read path) with
  | some (n, d) => return ofPrivate n d
  | none => throw .openSsl

def save (key : RSAKey Public Private) (privatePath publicPath : String) :
    EStateM Exn Files Unit := do
  Bio.create publicPath
  Bio.write publicPath (rsa.writePrivateKey key.rsaInstance)
  if !key.isPublicKey then
    Bio.create privatePath
    Bio.write privatePath (rsa.writePrivateKey key.rsaInstance)

/-- The file `Save` leaves at a path, whether it returns or throws. -/
def savedFile (key : RSAKey Public Private) (privatePath publicPath : String) (files : Files)
    (path : String) : Option String :=
  match (save rsa key privatePath publicPath).run files with
  | .ok _ files' => files' path
  | .error _ files' => files' path

/-- `Save` leaves the same file at the public path for both keys. -/
def SamePublicFile (privatePath publicPath : String) (files : Files)
    (key₁ key₂ : RSAKey Public Private) : Prop :=
  savedFile rsa key₁ privatePath publicPath files publicPath =
    savedFile rsa key₂ privatePath publicPath files publicPath

/-- The files `Save` leaves can be loaded again, each as what it should be. -/
def LoadsBack (privatePath publicPath : String) (files : Files) (key : RSAKey Public Private) :
    Prop :=
  ∃ files', (save rsa key privatePath publicPath).run files = .ok () files' ∧
    (∃ loaded, (loadPublicKeyFromFile rsa publicPath).run files' = .ok loaded files' ∧
      loaded.rsaInstance.publicPart = key.rsaInstance.publicPart) ∧
    ∃ loaded, (loadPrivateKeyFromFile rsa privatePath).run files' = .ok loaded files' ∧
      loaded.rsaInstance = key.rsaInstance

/-- Both files `Save` leaves load as the full key. -/
def PrivateAtBoth (privatePath publicPath : String) (files : Files) (key : RSAKey Public Private) :
    Prop :=
  ∃ files', (save rsa key privatePath publicPath).run files = .ok () files' ∧
    ∀ path ∈ [privatePath, publicPath], ∃ loaded,
      (loadPrivateKeyFromFile rsa path).run files' = .ok loaded files' ∧
        loaded.rsaInstance = key.rsaInstance

variable {rsa} {files : Files} {privatePath publicPath path pem : String}

theorem set_self (path text : String) (files : Files) : files.set path text path = some text :=
  Function.update_self ..

theorem set_of_ne (h : path ≠ path') (text : String) (files : Files) :
    files.set path' text path = files path := Function.update_of_ne h ..

theorem set_set (path text text' : String) (files : Files) :
    (files.set path text).set path text' = files.set path text' := Function.update_idem ..

theorem run_create (path : String) (files : Files) :
    (Bio.create path).run files = .ok () (files.set path "") := rfl

theorem run_write_created (path pem : String) (files : Files) :
    (Bio.write path (some pem)).run (files.set path "") = .ok () (files.set path pem) := by
  rw [Bio.write, EStateM.run_modify, set_self, set_set, Option.getD_some, String.empty_append]

/-- `Save` of a full key leaves the private key at both paths. -/
theorem run_save (h : rsa.writePrivateKey ⟨n, some d⟩ = some pem) (privatePath publicPath : String)
    (files : Files) : (save rsa (ofPrivate n d) privatePath publicPath).run files =
      .ok () ((files.set publicPath pem).set privatePath pem) := by
  have hwrite : rsa.writePrivateKey (ofPrivate n d).rsaInstance = some pem := h
  rw [save, hwrite, run_bind_of_ok _ (run_create publicPath files),
    run_bind_of_ok _ (run_write_created publicPath pem files),
    if_pos (show (!(ofPrivate n d).isPublicKey) = true from rfl),
    run_bind_of_ok _ (run_create privatePath _), run_write_created]

theorem savedFile_public (h : rsa.writePrivateKey ⟨n, some d⟩ = some pem)
    (hne : publicPath ≠ privatePath) (files : Files) :
    savedFile rsa (ofPrivate n d) privatePath publicPath files publicPath = some pem := by
  rw [savedFile, run_save h]
  dsimp only
  rw [set_of_ne hne, set_self]

theorem run_read (h : files path = some text) : (Bio.read path).run files = .ok text files := by
  rw [Bio.read, run_get_bind, h]
  rfl

theorem privateAtBoth (h : rsa.Lawful) (hne : publicPath ≠ privatePath) (files : Files)
    (n : Public) (d : Private) :
    PrivateAtBoth rsa privatePath publicPath files (ofPrivate n d) := by
  obtain ⟨pem, hwrite, hload, _⟩ := h.writePrivateKey n d
  refine ⟨_, run_save hwrite privatePath publicPath files, ?_⟩
  intro path hpath
  have hread : ((files.set publicPath pem).set privatePath pem) path = some pem := by
    rcases List.mem_pair.1 hpath with rfl | rfl
    · exact set_self ..
    · rw [set_of_ne hne, set_self]
  refine ⟨ofPrivate n d, ?_, rfl⟩
  rw [loadPrivateKeyFromFile, run_bind_of_ok _ (run_read hread), hload]
  rfl

/-- What is at the public path is no public key. -/
theorem not_loadsBack (h : rsa.Lawful) (hne : publicPath ≠ privatePath) (files : Files)
    (n : Public) (d : Private) : ¬ LoadsBack rsa privatePath publicPath files (ofPrivate n d) := by
  obtain ⟨pem, hwrite, _, hload⟩ := h.writePrivateKey n d
  rintro ⟨files', hsave, ⟨loaded, hpublic, _⟩, _⟩
  cases (run_save hwrite privatePath publicPath files).symm.trans hsave
  have hread : ((files.set publicPath pem).set privatePath pem) publicPath = some pem := by
    rw [set_of_ne hne, set_self]
  rw [loadPublicKeyFromFile, run_bind_of_ok _ (run_read hread), hload] at hpublic
  cases hpublic

theorem samePublicFile_iff (h : rsa.Lawful) (hne : publicPath ≠ privatePath) (files : Files)
    (n : Public) (d₁ d₂ : Private) :
    SamePublicFile rsa privatePath publicPath files (ofPrivate n d₁) (ofPrivate n d₂) ↔
      d₁ = d₂ := by
  obtain ⟨pem₁, hwrite₁, hload₁, _⟩ := h.writePrivateKey n d₁
  obtain ⟨pem₂, hwrite₂, hload₂, _⟩ := h.writePrivateKey n d₂
  rw [SamePublicFile, savedFile_public hwrite₁ hne, savedFile_public hwrite₂ hne]
  constructor
  · intro hsame
    cases hsame
    cases hload₁.symm.trans hload₂
    rfl
  · rintro rfl
    cases hwrite₁.symm.trans hwrite₂
    rfl

/-- The public file never loads as a public key but as the full key, and it is the same for two
keys with the same public part only if their private parts are the same. -/
theorem save_publishes_private_key (h : rsa.Lawful) (hne : privatePath ≠ publicPath)
    (files : Files) (key₁ key₂ : RSAKey Public Private) (generated : Public × Private) :
    ¬ (SamePublicFile rsa privatePath publicPath files key₁ key₂ ∧
        LoadsBack rsa privatePath publicPath files (generate generated)) ∧
      PrivateAtBoth rsa privatePath publicPath files (generate generated) ∧
      ∀ n d₁ d₂, SamePublicFile rsa privatePath publicPath files (ofPrivate n d₁)
        (ofPrivate n d₂) ↔ d₁ = d₂ := by
  refine ⟨?_, privateAtBoth h hne.symm files generated.1 generated.2, ?_⟩
  · rintro ⟨_, hloads⟩
    exact not_loadsBack h hne.symm files generated.1 generated.2 hloads
  · intro n d₁ d₂
    exact samePublicFile_iff h hne.symm files n d₁ d₂

/-- Keys with one public part and two private parts. -/
def sampleWrapper : RsaWrapper Unit Bool where
  writePrivateKey key := key.privatePart.map fun d =>
    if d then "RSA PRIVATE KEY 1" else "RSA PRIVATE KEY 0"
  fromPublicKey text := if text = "RSA PUBLIC KEY" then some () else none
  fromPrivateKey text :=
    if text = "RSA PRIVATE KEY 1" then some ((), true)
    else if text = "RSA PRIVATE KEY 0" then some ((), false)
    else none

theorem sampleWrapper_lawful : sampleWrapper.Lawful where
  writePrivateKey n d := ⟨_, rfl, by decide +revert, by decide +revert⟩

theorem save_publishes_sample_key :
    ¬ (SamePublicFile sampleWrapper "private.pem" "public.pem" (fun _ => none)
          (ofPrivate () false) (ofPrivate () true) ∧
        LoadsBack sampleWrapper "private.pem" "public.pem" (fun _ => none)
          (generate ((), false))) ∧
      PrivateAtBoth sampleWrapper "private.pem" "public.pem" (fun _ => none)
        (generate ((), false)) ∧
      ∀ n d₁ d₂, SamePublicFile sampleWrapper "private.pem" "public.pem" (fun _ => none)
        (ofPrivate n d₁) (ofPrivate n d₂) ↔ d₁ = d₂ :=
  save_publishes_private_key sampleWrapper_lawful (by decide) _ _ _ _

/-- The public files of two keys with the same public part differ. -/
theorem public_file_not_public : ¬ ∀ (Public Private : Type) (rsa : RsaWrapper Public Private)
    (privatePath publicPath : String) (files : Files) (key₁ key₂ : RSAKey Public Private)
    (generated : Public × Private), rsa.Lawful → privatePath ≠ publicPath →
    key₁.rsaInstance.publicPart = key₂.rsaInstance.publicPart →
    SamePublicFile rsa privatePath publicPath files key₁ key₂ ∧
      LoadsBack rsa privatePath publicPath files (generate generated) := by
  intro h
  have hsame := (h Unit Bool sampleWrapper "private.pem" "public.pem" (fun _ => none)
    (ofPrivate () false) (ofPrivate () true) ((), false) sampleWrapper_lawful (by decide) rfl).1
  cases (samePublicFile_iff sampleWrapper_lawful (by decide) _ () false true).1 hsame

end RSAKey

end AcOpenServer
