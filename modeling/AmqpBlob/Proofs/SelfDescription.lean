import AmqpBlob.Proofs.InStep
import AmqpBlob.Proofs.Peek

/-!
# Values that tell their types

A described value may be decoded as the type that its descriptor stands for, by the name of that type,
or as a value that tells its type itself. One way finds the type by its name and then compares the
descriptors, the other one finds it by the descriptor, and both go on alike. Only errors tell them
apart, by the names that their paths start with: a reading at another path is the same reading, with
the paths of its errors turned.
-/

namespace AmqpBlob

open Walk (bind_apply)

namespace Path

/-- The path from another name on. -/
def rootedAt (root : String) (path : Path) : Path :=
  { path with root }

/-- The first path, and behind it the steps of the second one. -/
def join (outer path : Path) : Path :=
  ⟨outer.root, path.steps ++ outer.steps⟩

end Path

namespace Walk

variable {α β : Type} {turn : Path → Path}

/-- The walk, with the paths of its errors turned into other ones. -/
def turned (turn : Path → Path) (walk : Walk DecodeError α) : Walk DecodeError α :=
  mapError (DecodeError.onPath turn) walk

/-- The paths of a walk that follows another one are turned with those of the other one. -/
lemma turned_bind (turn : Path → Path) (walk : Walk DecodeError α) (following : α → Walk DecodeError β) :
    turned turn (walk >>= following) =
      turned turn walk >>= fun value => turned turn (following value) := by
  funext c
  rw [bind_apply]
  unfold turned mapError
  rw [bind_apply]
  rcases walk c with ⟨_ | _, _⟩
  all_goals rfl

/-- A look at the cursor tells of no path. -/
lemma turned_look (query : Cursor → Except WireError α) :
    turned turn (look query) = look query := by
  funext c
  unfold turned mapError look
  cases query c with
  | error fault => rfl
  | ok value => rfl

/-- Paths are turned inside a value as outside of it. -/
lemma turned_inside (walk : Walk DecodeError α) :
    turned turn (inside walk) = inside (turned turn walk) := by
  funext c
  unfold turned mapError inside
  cases c.enter with
  | error fault => rfl
  | ok entered => rfl

/-- The paths of a loop are turned in each of its steps. -/
lemma turned_collectFrom (step : Nat → Walk DecodeError α) (limit : Nat) (taken : List α)
    (done : Nat) : turned turn (collectFrom step limit taken done) =
      collectFrom (fun index => turned turn (step index)) limit taken done := by
  induction limit generalizing taken done with
  | zero => rfl
  | succ limit ih =>
    have turns := turned_bind turn (step done) fun value =>
      collectFrom step limit (value :: taken) (done + 1)
    simp only [ih] at turns
    funext c
    unfold turned mapError
    rw [collectFrom_succ, collectFrom_succ]
    cases c.hasCurrent with
    | false => rfl
    | true => exact congrFun turns c

/-- Turning paths is kept when walks are put together. -/
lemma congruence_turned : Congruence fun _ walk walk' => walk' = turned turn walk where
  pure _ := rfl
  look _ := (turned_look _).symm
  hasCurrent := rfl
  next := rfl
  bind h h' := by
    rw [turned_bind, h, funext h']
  thenNext h := by
    rw [h]
    rfl
  collect h _ _ := by
    rw [funext h]
    exact funext fun c => (congrFun (turned_collectFrom _ _ _ _) c).symm

/-- A walk that finds no wrong descriptor at the value that paths start from, but only below it. -/
def Trusts (walk : Walk DecodeError α) : Prop :=
  ∀ c path expected found,
    (walk c).1 = .error (.descriptorMismatch path expected found) → path.steps ≠ []

namespace Trusts

variable {walk : Walk DecodeError α}

/-- A walk that does not fail finds no wrong descriptor. -/
lemma of_ok (h : ∀ c, ∃ value, (walk c).1 = .ok value) : Trusts walk := by
  intro c path expected found herror
  obtain ⟨value, hvalue⟩ := h c
  rw [hvalue] at herror
  cases herror

/-- A look at the cursor finds faults of the bytes only. -/
lemma look (query : Cursor → Except WireError α) : Trusts (look query) := by
  intro c path expected found h
  unfold Walk.look at h
  cases hquery : query c with
  | error fault =>
    rw [hquery] at h
    cases h
  | ok value =>
    rw [hquery] at h
    cases h

/-- Two walks that find no wrong descriptor find none one after the other. -/
lemma bind {following : α → Walk DecodeError β} (h : Trusts walk)
    (h' : ∀ value, Trusts (following value)) : Trusts (walk >>= following) := by
  intro c path expected found herror
  rw [bind_apply] at herror
  cases hw : walk c with
  | mk result d =>
    rw [hw] at herror
    cases result with
    | ok value => exact h' value d path expected found herror
    | error error =>
      cases herror
      exact h c path expected found (by rw [hw])

/-- A walk that finds no wrong descriptor finds none inside a value. -/
lemma inside (h : Trusts walk) : Trusts (inside walk) := by
  intro c path expected found herror
  unfold Walk.inside at herror
  cases henter : c.enter with
  | error fault =>
    rw [henter] at herror
    cases herror
  | ok entered =>
    rw [henter] at herror
    exact h entered path expected found herror

/-- A loop finds no wrong descriptor if none of its steps does. -/
lemma collectFrom {step : Nat → Walk DecodeError α} (h : ∀ index, Trusts (step index)) (limit : Nat)
    (taken : List α) (done : Nat) :
    Trusts (collectFrom step limit taken done : Walk DecodeError (List α)) := by
  induction limit generalizing taken done with
  | zero => exact .of_ok fun _ => ⟨_, rfl⟩
  | succ limit ih =>
    intro c path expected found herror
    rw [collectFrom_succ] at herror
    split at herror
    · exact (h done).bind (fun value => ih (value :: taken) (done + 1)) c path expected found herror
    · cases herror

/-- Finding no wrong descriptor is kept when walks are put together. -/
lemma congruence : Congruence fun _ walk _ => Trusts walk where
  pure _ := .of_ok fun _ => ⟨_, rfl⟩
  look _ := .look _
  hasCurrent := .of_ok fun _ => ⟨_, rfl⟩
  next := .of_ok fun _ => ⟨_, rfl⟩
  bind h h' := h.bind h'
  thenNext h := h
  collect h _ _ c := collectFrom h _ _ _ c

end Trusts

end Walk

open Walk (Trusts turned)

namespace Decoder

variable {decoder : Decoder} {turn : Path → Path} {left : Nat}

/-- A decoder is in step with itself on turned paths, if steps are pushed on these as before. -/
lemma inStep_turned (push : ∀ path step, turn (path.push step) = (turn path).push step) :
    InStep turn (fun _ walk walk' => walk' = turned turn walk)
      fun _ walk walk' => walk' = turned turn walk where
  outside := Walk.congruence_turned
  within := Walk.congruence_turned
  weaken h := h
  enter h := by
    rw [h, Walk.turned_inside]
  fail _ _ := rfl
  push := push

/-- A value is read alike at each path, but for the paths of errors. -/
lemma readValue_turned (turn : Path → Path)
    (push : ∀ path step, turn (path.push step) = (turn path).push step) (left : Nat) (name : String)
    (path : Path) :
    decoder.readValue left name (turn path) = turned turn (decoder.readValue left name path) := by
  induction left generalizing name path with
  | zero => rfl
  | succ left ih =>
    have children : InStep.Children turn (fun _ walk walk' => walk' = turned turn walk)
        (decoder.readValue left) (decoder.readValue left) := by
      refine ⟨fun name path step => ?_, takes_readValue left⟩
      rw [← push]
      exact ih name (path.push step)
    refine (inStep_turned push).readUse children (fun path => ?_) (fun type found path => ?_) rfl name
    · unfold goDeeper
      split
      · rfl
      · rfl
    · unfold checkDescriptor
      split
      · rfl
      · rfl

/-- What is wrong with a descriptor is found at the path of the reading or below it. -/
lemma steps_of_readValue {name : String} {path place : Path} {c : Cursor} {expected : Descriptor}
    {found : Scalar} (h : (decoder.readValue left name path c).1 =
      .error (.descriptorMismatch place expected found)) : path.steps <:+ place.steps := by
  -- The reading at a path is the one at its root, with the path's steps behind those of the errors.
  have turns : decoder.readValue left name path =
      turned path.join (decoder.readValue left name (.start path.root)) :=
    readValue_turned path.join (fun _ _ => rfl) left name (.start path.root)
  rw [turns] at h
  change ((decoder.readValue left name (.start path.root) c).1).mapError _ = _ at h
  cases hresult : (decoder.readValue left name (.start path.root) c).1 with
  | ok value =>
    rw [hresult] at h
    cases h
  | error error =>
    rw [hresult] at h
    cases error
    all_goals cases h
    exact List.suffix_append _ _

/-- The walks of a decoder find no wrong descriptor but where one is checked. -/
lemma inStep_trusts : InStep id (fun _ walk _ => Trusts walk) fun _ walk _ => Trusts walk where
  outside := Trusts.congruence
  within := Trusts.congruence
  weaken h := h
  enter h := h.inside
  fail error none c path expected found h := by
    cases h
    cases none
  push _ _ := rfl

/-- Where values nest too deep, it is not for their descriptors. -/
lemma trusts_goDeeper (path : Path) : Trusts (decoder.goDeeper left path) := by
  unfold goDeeper
  split
  · exact inStep_trusts.fail _ rfl
  · exact inStep_trusts.outside.pure _

/-- What the children of a value find is found below it. -/
lemma children_trusts : InStep.Children id (fun _ walk _ => Trusts walk) (decoder.readValue left)
    (decoder.readValue left) where
  related name path step c place expected found h := by
    have below := steps_of_readValue h
    exact List.ne_nil_of_mem (below.mem List.mem_cons_self)
  takes := takes_readValue left

variable {c : Cursor} {descriptor : Scalar} {type : TypeDef} {path : Path}

/-- A descriptor that the type accepts is passed over. -/
lemma readDeclared_of_accepts {child : Reading} (described : c.DescribedBy descriptor)
    (accepts : type.descriptor.accepts descriptor = true) :
    decoder.readDeclared left child type path c =
      (do
        decoder.goDeeper left path
        Walk.inside do
          Walk.next
          decoder.readBody left child type.body path : ValueWalk Value) c := by
  obtain ⟨inner, henter, hscalar⟩ := described.descriptor
  unfold readDeclared
  rw [Walk.bind_kind_of_eq described.kind]
  unfold goDeeper
  dsimp only
  split
  · rfl
  · rw [pure_bind, pure_bind]
    refine Walk.inside_congr henter ?_
    rw [Walk.bind_scalar_of_eq hscalar, checkDescriptor, if_pos (.inl accepts)]
    rfl

/-- A type that is found by the descriptor of a value accepts it. -/
lemma trusts_readDeclared {place : Path} {expected : Descriptor} {found : Scalar}
    (described : c.DescribedBy descriptor) (accepts : type.descriptor.accepts descriptor = true)
    (h : (decoder.readDeclared left (decoder.readValue left) type path c).1 =
      .error (.descriptorMismatch place expected found)) : place.steps ≠ [] := by
  rw [readDeclared_of_accepts described accepts] at h
  have body : Trusts (decoder.readBody left (decoder.readValue left) type.body path) :=
    @InStep.readBody _ _ _ _ _ path inStep_trusts children_trusts decoder decoder left left
      trusts_goDeeper type.body
  have next : Trusts Walk.next := .of_ok fun _ => ⟨_, rfl⟩
  exact (trusts_goDeeper path).bind (fun _ => (next.bind fun _ => body).inside) c place expected found h

/-- A value whose descriptor stands for a type is read as a value of the type. -/
lemma readOutermost_any (described : c.DescribedBy descriptor)
    (hfind : decoder.schema.find? descriptor = some type) :
    decoder.readOutermost TypeName.any path c = decoder.readDeclared decoder.options.maxDepth
      (decoder.readValue decoder.options.maxDepth) type path c := by
  unfold readOutermost readValue readUse
  rw [Schema.resolve?, if_pos rfl]
  dsimp only
  exact readAny_of_describedBy described hfind

/-- A name that stands for a type has values read as those of the type. -/
lemma readOutermost_declared (hname : decoder.schema.resolve? type.name = some (.declared type)) :
    decoder.readOutermost type.name path = decoder.readDeclared decoder.options.maxDepth
      (decoder.readValue decoder.options.maxDepth) type path := by
  unfold readOutermost readValue readUse
  rw [hname]

end Decoder

/-- A value whose descriptor stands for a type is decoded by the name of the type as it is without, to
the same value or the same error, with a path that starts at another name, and the cursor ends at the
same place. No descriptor is refused but those of values inside of it. -/
theorem decode_of_described {types : List TypeDef} {decoder : Decoder} {c : Cursor}
    {descriptor : Scalar} {type : TypeDef} (built : Schema.ofTypes types = .ok decoder.schema)
    (described : c.DescribedBy descriptor) (hfind : decoder.schema.find? descriptor = some type)
    (own : type.name ≠ TypeName.any) (compound : Kind.ofTypeName? type.name = none) :
    decoder.decode type.name c = turned (Path.rootedAt type.name) decoder.decodeAny c ∧
    decoder.decode TypeName.any c = turned (Path.rootedAt TypeName.any) decoder.decodeAny c ∧
    decoder.decodeAny c = turned (Path.rootedAt "$") (decoder.decode type.name) c ∧
    ∀ decoding ∈ [decoder.decodeAny, decoder.decode TypeName.any, decoder.decode type.name],
      ∀ path expected found,
        (decoding c).1 = .error (.descriptorMismatch path expected found) → path.steps ≠ [] := by
  have indexed := Schema.indexed_ofTypes built
  have hname : decoder.schema.resolve? type.name = some (.declared type) := by
    have hget := (indexed.get?_eq_some_iff (Schema.nodup_ofTypes built)).2
      ⟨indexed.mem_of_find? hfind, rfl⟩
    rw [Schema.resolve?, if_neg own, compound, hget]
  -- Both ways go on with a value of the declared type.
  have typed (path : Path) : decoder.readOutermost TypeName.any path c =
      decoder.readOutermost type.name path c := by
    rw [Decoder.readOutermost_any described hfind, Decoder.readOutermost_declared hname]
  have named (root : String) : Walk.thenNext (decoder.readOutermost TypeName.any (.start root)) c =
      Walk.thenNext (decoder.readOutermost type.name (.start root)) c := by
    unfold Walk.thenNext
    rw [typed]
  have moved (name root root' : String) :
      Walk.thenNext (decoder.readOutermost name (.start root')) =
        turned (Path.rootedAt root') (Walk.thenNext (decoder.readOutermost name (.start root))) :=
    congrArg Walk.thenNext
      (Decoder.readValue_turned (Path.rootedAt root') (fun _ _ => rfl) _ name (.start root))
  have trusted {path place : Path} {expected : Descriptor} {found : Scalar}
      (h : (decoder.readOutermost type.name path c).1 =
        .error (.descriptorMismatch place expected found)) : place.steps ≠ [] := by
    rw [Decoder.readOutermost_declared hname] at h
    exact Decoder.trusts_readDeclared described (indexed.accepts_of_find? hfind) h
  refine ⟨?_, congrFun (moved TypeName.any "$" TypeName.any) c, ?_, ?_⟩
  · exact (named type.name).symm.trans (congrFun (moved TypeName.any "$" type.name) c)
  · exact (named "$").trans (congrFun (moved type.name type.name "$") c)
  · intro decoding member place expected found h
    simp only [List.mem_cons, List.not_mem_nil, or_false] at member
    rcases member with rfl | rfl | rfl
    · exact trusted ((congrArg Prod.fst (typed _)).symm.trans h)
    · exact trusted ((congrArg Prod.fst (typed _)).symm.trans h)
    · exact trusted h

/-- A chain of a number and a value with the descriptor of no chain. -/
def strayBytes : ByteArray :=
  ⟨#[0x00, 0x53, 0x07, 0xc0, 0x07, 0x02, 0x54, 0x06, 0x00, 0x53, 0x08, 0x45]⟩

set_option maxRecDepth 10000 in
/-- The stray descriptor is found inside the chain, at its tail. -/
theorem decode_of_described_chain : Schema.ofTypes [chainType] = .ok chainDecoder.schema ∧
    (Cursor.ofBytes strayBytes).DescribedBy (.ulong 7) ∧
    chainDecoder.schema.find? (.ulong 7) = some chainType ∧
    chainType.name ≠ TypeName.any ∧ Kind.ofTypeName? chainType.name = none ∧
    (chainDecoder.decodeAny (.ofBytes strayBytes)).1 =
      .error (.descriptorMismatch ⟨"$", [.field "tail"]⟩ ⟨none, some 7⟩ (.ulong 8)) ∧
    (Path.mk "$" [.field "tail"]).steps ≠ [] := by
  have built : Schema.ofTypes [chainType] = .ok chainDecoder.schema := rfl
  have described : (Cursor.ofBytes strayBytes).DescribedBy (.ulong 7) := ⟨rfl, _, rfl, rfl⟩
  have hfind : chainDecoder.schema.find? (.ulong 7) = some chainType := rfl
  have own : chainType.name ≠ TypeName.any := by decide
  have compound : Kind.ofTypeName? chainType.name = none := by decide
  have refused : (chainDecoder.decode "Chain" (.ofBytes strayBytes)).1 =
      .error (.descriptorMismatch ⟨"Chain", [.field "tail"]⟩ ⟨none, some 7⟩ (.ulong 8)) := rfl
  obtain ⟨_, _, same, trusted⟩ := decode_of_described built described hfind own compound
  have mismatch : (chainDecoder.decodeAny (.ofBytes strayBytes)).1 =
      .error (.descriptorMismatch ⟨"$", [.field "tail"]⟩ ⟨none, some 7⟩ (.ulong 8)) := by
    rw [same]
    exact congrArg (Except.mapError (DecodeError.onPath (Path.rootedAt "$"))) refused
  exact ⟨built, described, hfind, own, compound, mismatch,
    trusted _ List.mem_cons_self _ _ _ mismatch⟩

end AmqpBlob
