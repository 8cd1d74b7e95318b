import Idax.Library.Machine
import Idax.Types.TypeInfo

/-!
Programs over objects of the class `TypeInfo`, and which of them never use an implementation that is not
there.
-/

namespace Idax
namespace Types
namespace TypeInfo

open Pimpl Pimpl.Prog

variable {Ti : Type} (sdk : TinfoSdk Ti)

inductive Answer where
  | done
  | object (o : Nat)
  | flag (b : Bool)
  | status (r : Status)
  | typeResult (r : Result Nat)
  | typesResult (r : Result (List Nat))
  | numberResult (r : Result Nat)
  | textResult (r : Result String)
  | flagResult (r : Result Bool)
  | conventionResult (r : Result CallingConvention)
  | enumResult (r : Result (List EnumMember))
  | membersResult (r : Result (List Member))
  | memberResult (r : Result Member)

inductive Method where
  | isVoid
  | isInteger
  | isFloatingPoint
  | isPointer
  | isArray
  | isFunction
  | isStruct
  | isUnion
  | isEnum
  | isTypedef
  | size
  | toText
  | pointeeType
  | arrayElementType
  | arrayLength
  | resolveTypedef
  | functionReturnType
  | functionArgumentTypes
  | callingConvention
  | isVariadicFunction
  | enumMembers
  | memberCount
  | members
  | memberByName (name : String)
  | memberByOffset (byteOffset : UInt64)
  | addMember (name : String) (memberType : Nat) (byteOffset : UInt64)
  | apply (ea : Address)
  | saveAs (name : String)

inductive Op where
  | construct
  | copyConstruct (other : Nat)
  | moveConstruct (other : Nat)
  | copyAssign (this other : Nat)
  | moveAssign (this other : Nat)
  | destroy (this : Nat)
  | simple (type : SimpleType)
  | pointerTo (target : Nat)
  | arrayOf (element : Nat) (count : UInt64)
  | functionType (returnType : Nat) (argumentTypes : List Nat) (cc : CallingConvention)
      (hasVarargs : Bool)
  | enumType (members : List EnumMember) (byteWidth : UInt64) (bitmask : Bool)
  | fromDeclaration (cDecl : String)
  | createStruct
  | createUnion
  | byName (name : String)
  | call (this : Nat) (method : Method)

section Perform

def answer (f : α → Answer) (m : Prog Ti α) : Prog Ti Answer := do
  return f (← m)

def Method.run (this : Nat) : Method → Prog Ti Answer
  | isVoid => answer .flag (TypeInfo.isVoid sdk this)
  | isInteger => answer .flag (TypeInfo.isInteger sdk this)
  | isFloatingPoint => answer .flag (TypeInfo.isFloatingPoint sdk this)
  | isPointer => answer .flag (TypeInfo.isPointer sdk this)
  | isArray => answer .flag (TypeInfo.isArray sdk this)
  | isFunction => answer .flag (TypeInfo.isFunction sdk this)
  | isStruct => answer .flag (TypeInfo.isStruct sdk this)
  | isUnion => answer .flag (TypeInfo.isUnion sdk this)
  | isEnum => answer .flag (TypeInfo.isEnum sdk this)
  | isTypedef => answer .flag (TypeInfo.isTypedef sdk this)
  | size => answer .numberResult (TypeInfo.size sdk this)
  | toText => answer .textResult (TypeInfo.toText sdk this)
  | pointeeType => answer .typeResult (TypeInfo.pointeeType sdk this)
  | arrayElementType => answer .typeResult (TypeInfo.arrayElementType sdk this)
  | arrayLength => answer .numberResult (TypeInfo.arrayLength sdk this)
  | resolveTypedef => answer .typeResult (TypeInfo.resolveTypedef sdk this)
  | functionReturnType => answer .typeResult (TypeInfo.functionReturnType sdk this)
  | functionArgumentTypes => answer .typesResult (TypeInfo.functionArgumentTypes sdk this)
  | callingConvention => answer .conventionResult (TypeInfo.callingConvention sdk this)
  | isVariadicFunction => answer .flagResult (TypeInfo.isVariadicFunction sdk this)
  | enumMembers => answer .enumResult (TypeInfo.enumMembers sdk this)
  | memberCount => answer .numberResult (TypeInfo.memberCount sdk this)
  | members => answer .membersResult (TypeInfo.members sdk this)
  | memberByName name => answer .memberResult (TypeInfo.memberByName sdk this name)
  | memberByOffset byteOffset => answer .memberResult (TypeInfo.memberByOffset sdk this byteOffset)
  | addMember name memberType byteOffset =>
    answer .status (TypeInfo.addMember sdk this name memberType byteOffset)
  | apply ea => answer .status (TypeInfo.apply sdk this ea)
  | saveAs name => answer .status (TypeInfo.saveAs sdk this name)

def perform : Op → Prog Ti Answer
  | .construct => answer .object (construct sdk)
  | .copyConstruct other => answer .object (copyConstruct other)
  | .moveConstruct other => answer .object (moveConstruct other)
  | .copyAssign this other => answer (fun _ => .done) (copyAssign this other)
  | .moveAssign this other => answer (fun _ => .done) (moveAssign this other)
  | .destroy this => answer (fun _ => .done) (destroy this)
  | .simple type => answer .object (simple sdk type)
  | .pointerTo target => answer .object (pointerTo sdk target)
  | .arrayOf element count => answer .object (arrayOf sdk element count)
  | .functionType returnType argumentTypes cc hasVarargs =>
    answer .typeResult (functionType sdk returnType argumentTypes cc hasVarargs)
  | .enumType members byteWidth bitmask => answer .typeResult (enumType sdk members byteWidth bitmask)
  | .fromDeclaration cDecl => answer .typeResult (fromDeclaration sdk cDecl)
  | .createStruct => answer .object (createStruct sdk)
  | .createUnion => answer .object (createUnion sdk)
  | .byName name => answer .typeResult (byName sdk name)
  | .call this method => method.run sdk this

end Perform

section Specification

def Method.ifNull : Method → Answer
  | isVoid | isInteger | isFloatingPoint | isPointer | isArray | isFunction | isStruct | isUnion | isEnum
  | isTypedef => .flag false
  | size | arrayLength | memberCount => .numberResult (.error nullImpl)
  | toText => .textResult (.error nullImpl)
  | pointeeType | arrayElementType | resolveTypedef | functionReturnType =>
    .typeResult (.error nullImpl)
  | functionArgumentTypes => .typesResult (.error nullImpl)
  | callingConvention => .conventionResult (.error nullImpl)
  | isVariadicFunction => .flagResult (.error nullImpl)
  | enumMembers => .enumResult (.error nullImpl)
  | members => .membersResult (.error nullImpl)
  | memberByName _ | memberByOffset _ => .memberResult (.error nullImpl)
  | addMember _ _ _ | apply _ | saveAs _ => .status (.error nullImpl)

def documented (h : Heap Ti) : Op → Option Answer
  | .functionType returnType argumentTypes _ _ =>
    if h.pointer? returnType = some none then
      some (.typeResult (.error (.internal "Return type has null implementation")))
    else if argumentTypes.any fun o => h.pointer? o = some none then
      some (.typeResult (.error (.internal "Argument type has null implementation")))
    else
      none
  | .call this method => if h.pointer? this = some none then some method.ifNull else none
  | _ => none

def Op.objects : Op → List Nat
  | .copyConstruct other | .moveConstruct other => [other]
  | .copyAssign this other | .moveAssign this other => [this, other]
  | .destroy this => [this]
  | .pointerTo target => [target]
  | .arrayOf element _ => [element]
  | .functionType returnType argumentTypes _ _ => returnType :: argumentTypes
  | .call this (.addMember _ memberType _) => [this, memberType]
  | .call this _ => [this]
  | _ => []

def TakesPresent (h : Heap Ti) : Op → Prop
  | .copyConstruct other => h.Present other
  | .copyAssign this other => this ≠ other → h.Present other
  | .pointerTo target => h.Present target
  | .arrayOf element _ => h.Present element
  | .call this (.addMember _ memberType _) =>
    (∃ p ti, h.pointer? this = some (some p) ∧ h.cell? p = some ti ∧ isUdt sdk ti = true)
      → h.Present memberType
  | _ => True

end Specification

section Lifecycle

variable {h : Heap Ti}

theorem present_or_absent {o : Nat} (ho : h.pointer? o ≠ none) : h.Present o ∨ h.Absent o := by
  rcases Option.ne_none_iff_exists'.mp ho with ⟨_ | p, hp⟩
  . exact .inr hp
  . exact .inl ⟨p, hp⟩

theorem construct_apply
    : construct sdk h = some (h.objects.length, h.construct sdk.empty) :=
  rfl

theorem create_apply {arguments : Prog Ti Ti} {ti : Ti}
    (harguments : arguments (h.construct sdk.empty) = some (ti, h.construct sdk.empty))
    : create sdk arguments h = some (h.objects.length, h.construct ti) := by
  have hpointer : (h.construct sdk.empty).pointer? h.objects.length = some (some h.cells.length) := by
    rw [Heap.pointer?_construct, if_pos rfl]
  have hcell : (h.construct sdk.empty).cell? h.cells.length = some sdk.empty := by
    have hnew := Heap.cell?_alloc (h := h) sdk.empty h.cells.length
    rw [if_pos rfl] at hnew
    exact hnew
  have hstore : (h.construct sdk.empty).store h.cells.length ti = h.construct ti := by
    simp [Heap.construct, Heap.store, Heap.declare, Heap.alloc]
  unfold create
  rw [bind_apply, construct_apply, Option.bind_some, bind_apply, harguments, Option.bind_some]
  rw [bind_apply, impl_apply hpointer, Option.bind_some, bind_apply, store, Option.filter_some, hcell]
  rw [Option.isSome_some, if_pos rfl, Option.map_some, hstore]
  rfl

theorem safe_create_pure {pre : Heap Ti → Prop} (ti : Ti) : Safe pre (create sdk (pure ti)) :=
  fun _ howned _ =>
    ⟨_, _, create_apply sdk rfl, Heap.owned_construct howned ti, Heap.keeps_construct ti⟩

theorem safe_tryCreate {pre : Heap Ti → Prop} (hstable : Stable pre) (ti : Option Ti) (error : Error)
    : Safe pre (tryCreate sdk ti error) := by
  cases ti with
  | none => exact safe_pure _
  | some ti => exact safe_bind hstable (safe_create_pure sdk ti) fun _ => safe_pure _

theorem create_of_present (howned : h.Owned) {o : Nat} (ho : h.Present o) (f : Ti → Ti)
    : ∃ ti, create sdk (do return f (← deref (← impl o))) h = some (h.objects.length, h.construct ti) := by
  rcases deref_impl_present howned ho with ⟨p, i, hp, hi, _⟩
  have hne : p ≠ h.cells.length := by
    rintro rfl
    cases (Heap.cell?_length (h := h)).symm.trans hi
  have hpointer : (h.construct sdk.empty).pointer? o = some (some p) := Heap.keeps_construct _ o _ hp
  have hcell : (h.construct sdk.empty).cell? p = some i := by
    have hkept := Heap.cell?_alloc (h := h) sdk.empty p
    rw [if_neg hne, hi] at hkept
    exact hkept
  refine ⟨f i, create_apply sdk ?_⟩
  rw [bind_apply, impl_apply hpointer, Option.bind_some, bind_apply, deref_apply hcell]
  rfl

theorem create_of_absent {o : Nat} (ho : h.Absent o) (f : Ti → Ti)
    : create sdk (do return f (← deref (← impl o))) h = none := by
  have hpointer : (h.construct sdk.empty).pointer? o = some none := Heap.keeps_construct _ o _ ho
  unfold create
  rw [bind_apply, construct_apply, Option.bind_some, bind_apply, bind_apply, impl_apply hpointer]
  rfl

theorem copyConstruct_of_present (howned : h.Owned) {o : Nat} (ho : h.Present o)
    : ∃ ti, copyConstruct o h = some (h.objects.length, h.construct ti) := by
  rcases deref_impl_present howned ho with ⟨p, i, hp, hi, _⟩
  refine ⟨i, ?_⟩
  unfold copyConstruct
  rw [bind_apply, impl_apply hp, Option.bind_some, bind_apply, deref_apply hi]
  rfl

theorem copyConstruct_of_absent {o : Nat} (ho : h.Absent o) : copyConstruct o h = none := by
  unfold copyConstruct
  rw [bind_apply, impl_apply ho]
  rfl

theorem delete_apply (howned : h.Owned) {o : Nat} {ptr : Option Nat} (ho : h.pointer? o = some ptr)
    : delete ptr h = some ((), h.delete ptr) := by
  unfold delete
  rw [if_pos]
  cases ptr with
  | none => rfl
  | some p =>
    rw [Option.all_some, Option.isSome_iff_ne_none]
    exact howned.valid o p ho

theorem absent_release {this : Nat} {ptr : Option Nat} (hthis : h.pointer? this = some ptr)
    : ((h.delete ptr).setPointer this none).Absent this := by
  rw [Heap.Absent, Heap.pointer?_setPointer, if_pos rfl]
  rw [Heap.pointer?_delete, hthis]
  simp

theorem copyAssign_self (h : Heap Ti) (this : Nat) : copyAssign this this h = some ((), h) := by
  unfold copyAssign
  rw [if_neg (not_not.mpr rfl)]
  rfl

theorem moveAssign_self (h : Heap Ti) (this : Nat) : moveAssign this this h = some ((), h) := by
  unfold moveAssign
  rw [if_neg (not_not.mpr rfl)]
  rfl

theorem owned_copyAssign (howned : h.Owned) {this other : Nat} (hthis : h.pointer? this ≠ none)
    (hne : this ≠ other) (hother : h.Present other)
    : ∃ h', copyAssign this other h = some ((), h') ∧ h'.Owned := by
  rcases Option.ne_none_iff_exists'.mp hthis with ⟨ptr, hptr⟩
  rcases deref_impl_present howned hother with ⟨p, i, hp, hi, _⟩
  have hpointer : (h.delete ptr).pointer? other = some (some p) := by
    rw [Heap.pointer?_delete, hp]
  have hpointer' : ((h.delete ptr).alloc i).pointer? this = some ptr := by
    rw [← hptr]
    exact Heap.pointer?_delete ptr this
  have hcell : (h.delete ptr).cell? p = some i := by
    cases ptr with
    | none => exact hi
    | some q =>
      have hq : p ≠ q := by
        rintro rfl
        exact hne (howned.unique this other p hptr hp)
      rw [← hi]
      exact (Heap.cell?_free (howned.valid this q hptr) p).trans (if_neg hq)
  refine ⟨((h.delete ptr).alloc i).setPointer this (some (h.delete ptr).cells.length), ?_, ?_⟩
  . unfold copyAssign
    rw [if_pos hne, bind_apply, impl_apply hptr, Option.bind_some, bind_apply, delete_apply howned hptr]
    rw [Option.bind_some, bind_apply, impl_apply hpointer, Option.bind_some, bind_apply]
    rw [deref_apply hcell, Option.bind_some, bind_apply, new, Option.bind_some, setImpl, hpointer']
    rfl
  . have hgive := Heap.owned_give (Heap.owned_release howned hptr) (absent_release hptr) i
    have hshift : ((h.delete ptr).setPointer this none).alloc i
        = ((h.delete ptr).alloc i).setPointer this none :=
      rfl
    rw [hshift, Heap.setPointer_setPointer] at hgive
    exact hgive

theorem copyAssign_of_absent (howned : h.Owned) {this other : Nat} (hthis : h.pointer? this ≠ none)
    (hne : this ≠ other) (hother : h.Absent other)
    : copyAssign this other h = none := by
  rcases Option.ne_none_iff_exists'.mp hthis with ⟨ptr, hptr⟩
  have hpointer : (h.delete ptr).pointer? other = some none := by
    rw [Heap.pointer?_delete]
    exact hother
  unfold copyAssign
  rw [if_pos hne, bind_apply, impl_apply hptr, Option.bind_some, bind_apply, delete_apply howned hptr]
  rw [Option.bind_some, bind_apply, impl_apply hpointer]
  rfl

theorem owned_moveConstruct (howned : h.Owned) {other : Nat} (hother : h.pointer? other ≠ none)
    : ∃ o h', moveConstruct other h = some (o, h') ∧ h'.Owned := by
  rcases Option.ne_none_iff_exists'.mp hother with ⟨ptr, hptr⟩
  have hne : h.objects.length ≠ other := by
    rintro rfl
    exact hother Heap.pointer?_length
  have hdeclared (ptr' : Option Nat) : (h.declare ptr').pointer? other = some ptr := by
    rw [Heap.pointer?_declare, if_neg (Ne.symm hne), hptr]
  refine ⟨h.objects.length, (h.declare ptr).setPointer other none, ?_, ?_⟩
  . unfold moveConstruct
    rw [bind_apply, impl_apply hptr, Option.bind_some, bind_apply, object, Option.bind_some, bind_apply]
    rw [setImpl, hdeclared ptr]
    rfl
  . have habsent : (h.declare none).Absent h.objects.length := by
      rw [Heap.Absent, Heap.pointer?_declare, if_pos rfl]
    rw [Heap.declare_eq]
    exact Heap.owned_transfer (Heap.owned_declare howned) hne habsent (hdeclared none)

theorem owned_moveAssign (howned : h.Owned) {this other : Nat} (hthis : h.pointer? this ≠ none)
    (hne : this ≠ other) (hother : h.pointer? other ≠ none)
    : ∃ h', moveAssign this other h = some ((), h') ∧ h'.Owned := by
  rcases Option.ne_none_iff_exists'.mp hthis with ⟨ptr, hptr⟩
  rcases Option.ne_none_iff_exists'.mp hother with ⟨ptr', hptr'⟩
  have hpointer : (h.delete ptr).pointer? this = some ptr := by
    rw [Heap.pointer?_delete, hptr]
  have hpointer' : (h.delete ptr).pointer? other = some ptr' := by
    rw [Heap.pointer?_delete, hptr']
  have halive : (h.delete ptr).pointer? this ≠ none := by
    rw [hpointer]
    simp
  have hset : ((h.delete ptr).setPointer this ptr').pointer? other = some ptr' := by
    rw [Heap.pointer?_setPointer halive, if_neg (Ne.symm hne), hpointer']
  refine ⟨((h.delete ptr).setPointer this ptr').setPointer other none, ?_, ?_⟩
  . unfold moveAssign
    rw [if_pos hne, bind_apply, impl_apply hptr, Option.bind_some, bind_apply, delete_apply howned hptr]
    rw [Option.bind_some, bind_apply, impl_apply hpointer', Option.bind_some, bind_apply, setImpl, hpointer]
    rw [Option.map_some, Option.bind_some, setImpl, hset]
    rfl
  . have hreleased : ((h.delete ptr).setPointer this none).pointer? other = some ptr' := by
      rw [Heap.pointer?_setPointer halive, if_neg (Ne.symm hne), hpointer']
    have htransfer :=
      Heap.owned_transfer (Heap.owned_release howned hptr) hne (absent_release hptr) hreleased
    rw [Heap.setPointer_setPointer] at htransfer
    exact htransfer

theorem owned_destroy (howned : h.Owned) {this : Nat} (hthis : h.pointer? this ≠ none)
    : ∃ h', destroy this h = some ((), h') ∧ h'.Owned := by
  rcases Option.ne_none_iff_exists'.mp hthis with ⟨ptr, hptr⟩
  have hpointer : (h.delete ptr).pointer? this = some ptr := by
    rw [Heap.pointer?_delete, hptr]
  refine ⟨(h.delete ptr).endLife this, ?_, ?_⟩
  . unfold destroy
    rw [bind_apply, impl_apply hptr, Option.bind_some, bind_apply, delete_apply howned hptr]
    rw [Option.bind_some, endLife, hpointer]
    rfl
  . have hended := Heap.owned_endLife (Heap.owned_release howned hptr) (absent_release hptr)
    rw [Heap.endLife_setPointer] at hended
    exact hended

end Lifecycle

section Methods

variable {h : Heap Ti}

def Meets (m : Prog Ti Answer) (h : Heap Ti) (expected : Option Answer) : Prop :=
  ∃ a h', m h = some (a, h') ∧ h'.Owned ∧ ∀ b, expected = some b → a = b

theorem answer_apply {f : α → Answer} {m : Prog Ti α} {a : α} {h' : Heap Ti} (hm : m h = some (a, h'))
    : answer f m h = some (f a, h') := by
  unfold answer
  rw [bind_apply, hm]
  rfl

theorem answer_none {f : α → Answer} {m : Prog Ti α} (hm : m h = none) : answer f m h = none := by
  unfold answer
  rw [bind_apply, hm]
  rfl

theorem meets_of_safe (howned : h.Owned) {m : Prog Ti α} (hsafe : Safe (fun _ => True) m)
    (f : α → Answer)
    : Meets (answer f m) h none := by
  rcases hsafe h howned trivial with ⟨a, h', hrun, howned', _⟩
  exact ⟨f a, h', answer_apply hrun, howned', fun b hb => nomatch hb⟩

theorem guarded_of_absent {this : Nat} (hthis : h.Absent this)
    (body : Nat → Ti → Prog Ti (Result α))
    : guarded this body h = some (.error nullImpl, h) := by
  unfold guarded
  rw [bind_apply, impl_apply hthis]
  rfl

theorem guarded_of_present {this p : Nat} {ti : Ti} (hthis : h.pointer? this = some (some p))
    (hp : h.cell? p = some ti) (body : Nat → Ti → Prog Ti (Result α))
    : guarded this body h = body p ti h := by
  unfold guarded
  rw [bind_apply, impl_apply hthis, Option.bind_some]
  change (deref (some p) >>= body p) h = body p ti h
  rw [bind_apply, deref_apply hp, Option.bind_some]

theorem meets_guarded (howned : h.Owned) {this : Nat} (hthis : h.pointer? this ≠ none)
    {body : Nat → Ti → Prog Ti (Result α)}
    (hbody : ∀ p ti, h.pointer? this = some (some p) → h.cell? p = some ti
      → ∃ a h', body p ti h = some (a, h') ∧ h'.Owned)
    (f : Result α → Answer)
    : Meets (answer f (guarded this body)) h
        (if h.pointer? this = some none then some (f (.error nullImpl)) else none) := by
  rcases present_or_absent hthis with hpresent | habsent
  . rcases deref_impl_present howned hpresent with ⟨p, ti, hp, hti, _⟩
    rcases hbody p ti hp hti with ⟨a, h', hrun, howned'⟩
    refine ⟨f a, h', ?_, howned', ?_⟩
    . rw [answer_apply]
      rw [guarded_of_present hp hti]
      exact hrun
    . rw [hp]
      simp
  . refine ⟨f (.error nullImpl), h, answer_apply (guarded_of_absent habsent body), howned, ?_⟩
    intro b hb
    rw [if_pos (show h.pointer? this = some none from habsent)] at hb
    exact Option.some.inj hb

theorem meets_guarded_of_safe (howned : h.Owned) {this : Nat} (hthis : h.pointer? this ≠ none)
    {body : Nat → Ti → Prog Ti (Result α)} (hbody : ∀ p ti, Safe (fun _ => True) (body p ti))
    (f : Result α → Answer)
    : Meets (answer f (guarded this body)) h
        (if h.pointer? this = some none then some (f (.error nullImpl)) else none) := by
  apply meets_guarded howned hthis
  intro p ti _ _
  rcases hbody p ti h howned trivial with ⟨a, h', hrun, howned', _⟩
  exact ⟨a, h', hrun, howned'⟩

theorem meets_query (howned : h.Owned) {this : Nat} (hthis : h.pointer? this ≠ none) (test : Ti → Bool)
    : Meets (answer .flag (query test this)) h
        (if h.pointer? this = some none then some (.flag false) else none) := by
  rcases present_or_absent hthis with hpresent | habsent
  . rcases deref_impl_present howned hpresent with ⟨p, ti, hp, hti, _⟩
    refine ⟨.flag (test ti), h, ?_, howned, ?_⟩
    . apply answer_apply
      unfold query
      rw [bind_apply, impl_apply hp, Option.bind_some]
      change (deref (some p) >>= fun ti => pure (test ti)) h = some (test ti, h)
      rw [bind_apply, deref_apply hti]
      rfl
    . rw [hp]
      simp
  . refine ⟨.flag false, h, ?_, howned, ?_⟩
    . apply answer_apply
      unfold query
      rw [bind_apply, impl_apply habsent]
      rfl
    . intro b hb
      rw [if_pos (show h.pointer? this = some none from habsent)] at hb
      exact Option.some.inj hb

section Bodies

variable {pre : Heap Ti → Prop} (hstable : Stable pre)

include hstable

theorem safe_wrapAll (tis : List Ti) : Safe pre (wrapAll sdk tis) := by
  induction tis with
  | nil => exact safe_pure _
  | cons ti tis ih =>
    apply safe_bind hstable (safe_create_pure sdk ti)
    intro wrapped
    exact safe_bind hstable ih fun _ => safe_pure _

theorem safe_makeMember (m : UdmT Ti) : Safe pre (makeMember sdk m) :=
  safe_bind hstable (safe_create_pure sdk m.type) fun _ => safe_pure _

theorem safe_makeMembers (ms : List (UdmT Ti)) : Safe pre (makeMembers sdk ms) := by
  induction ms with
  | nil => exact safe_pure _
  | cons m ms ih =>
    apply safe_bind hstable (safe_makeMember sdk hstable m)
    intro member
    exact safe_bind hstable ih fun _ => safe_pure _

end Bodies

theorem stable_true : Stable fun _ : Heap Ti => True :=
  fun _ _ _ h => h

theorem meets_withFunctionType (howned : h.Owned) {this : Nat} (hthis : h.pointer? this ≠ none)
    {body : Ti → Prog Ti (Result α)} (hbody : ∀ ti, Safe (fun _ => True) (body ti))
    (f : Result α → Answer)
    : Meets (answer f (withFunctionType sdk this body)) h
        (if h.pointer? this = some none then some (f (.error nullImpl)) else none) := by
  apply meets_guarded_of_safe howned hthis
  intro p ti
  cases asFunctionType sdk ti with
  | error e => exact safe_pure _
  | ok functionType => exact hbody functionType

theorem meets_withUdt (howned : h.Owned) {this : Nat} (hthis : h.pointer? this ≠ none)
    {body : Nat → Ti → Prog Ti (Result α)} (hbody : ∀ p ti, Safe (fun _ => True) (body p ti))
    (f : Result α → Answer)
    : Meets (answer f (withUdt sdk this body)) h
        (if h.pointer? this = some none then some (f (.error nullImpl)) else none) := by
  apply meets_guarded_of_safe howned hthis
  intro p ti
  split
  . exact safe_pure _
  . exact hbody p ti

theorem store_apply {p : Nat} {ti : Ti} (hp : h.cell? p = some ti) (ti' : Ti)
    : store (some p) ti' h = some ((), h.store p ti') := by
  rw [store, Option.filter_some, hp, Option.isSome_some, if_pos rfl, Option.map_some]

theorem owned_store_then (howned : h.Owned) {p : Nat} {ti : Ti} (hp : h.cell? p = some ti) (ti' : Ti)
    (r : Status)
    : (do store (some p) ti'; return r : Prog Ti Status) h = some (r, h.store p ti')
      ∧ (h.store p ti').Owned := by
  constructor
  . rw [bind_apply, store_apply hp]
    rfl
  . apply Heap.owned_store howned
    rw [hp]
    simp

theorem meets_method (howned : h.Owned) {this : Nat} (hthis : h.pointer? this ≠ none) (method : Method)
    (hmethod : ∀ name memberType byteOffset, method ≠ .addMember name memberType byteOffset)
    : Meets (method.run sdk this) h
        (if h.pointer? this = some none then some method.ifNull else none) := by
  cases method with
  | isVoid | isInteger | isFloatingPoint | isPointer | isArray | isFunction | isStruct | isUnion | isEnum
  | isTypedef => exact meets_query howned hthis _
  | size =>
    apply meets_guarded_of_safe howned hthis
    intro p ti
    split <;> exact safe_pure _
  | toText =>
    apply meets_guarded_of_safe howned hthis
    intro p ti
    split <;> exact safe_pure _
  | pointeeType | arrayElementType =>
    apply meets_guarded_of_safe howned hthis
    intro p ti
    split
    . exact safe_pure _
    . exact safe_tryCreate sdk stable_true _ _
  | arrayLength | memberCount =>
    apply meets_guarded_of_safe howned hthis
    intro p ti
    split
    . exact safe_pure _
    . dsimp only
      split <;> exact safe_pure _
  | resolveTypedef =>
    apply meets_guarded_of_safe howned hthis
    intro p ti
    split
    . exact safe_bind stable_true (safe_create_pure sdk ti) fun _ => safe_pure _
    . split
      . exact safe_pure _
      . dsimp only
        split
        . exact safe_pure _
        . exact safe_tryCreate sdk stable_true _ _
  | functionReturnType =>
    apply meets_withFunctionType sdk howned hthis
    intro ti
    exact safe_bind stable_true (safe_create_pure sdk _) fun _ => safe_pure _
  | functionArgumentTypes =>
    apply meets_withFunctionType sdk howned hthis
    intro ti
    split
    . exact safe_pure _
    . exact safe_bind stable_true (safe_wrapAll sdk stable_true _) fun _ => safe_pure _
  | callingConvention | isVariadicFunction =>
    apply meets_withFunctionType sdk howned hthis
    intro ti
    exact safe_pure _
  | enumMembers =>
    apply meets_guarded_of_safe howned hthis
    intro p ti
    split
    . exact safe_pure _
    . split <;> exact safe_pure _
  | members =>
    apply meets_withUdt sdk howned hthis
    intro p ti
    split
    . exact safe_pure _
    . exact safe_bind stable_true (safe_makeMembers sdk stable_true _) fun _ => safe_pure _
  | memberByName name =>
    apply meets_withUdt sdk howned hthis
    intro p ti
    split
    . exact safe_pure _
    . exact safe_bind stable_true (safe_makeMember sdk stable_true _) fun _ => safe_pure _
  | memberByOffset byteOffset =>
    apply meets_withUdt sdk howned hthis
    intro p ti
    split
    . exact safe_pure _
    . exact safe_bind stable_true (safe_makeMember sdk stable_true _) fun _ => safe_pure _
  | addMember name memberType byteOffset => exact absurd rfl (hmethod name memberType byteOffset)
  | apply ea =>
    apply meets_guarded_of_safe howned hthis
    intro p ti
    split <;> exact safe_pure _
  | saveAs name =>
    apply meets_guarded howned hthis
    intro p ti _ hp
    rcases hset : sdk.setNamedType ti name with ⟨ti', _ | text⟩
    . have hstored := owned_store_then howned hp ti' ok
      exact ⟨_, _, by simpa only [hset] using hstored.left, hstored.right⟩
    . have hstored := owned_store_then howned hp ti'
        (.error (.sdk "Failed to save named type" (name ++ ": " ++ text)))
      exact ⟨_, _, by simpa only [hset] using hstored.left, hstored.right⟩

theorem meets_addMember (howned : h.Owned) {this memberType : Nat} (hthis : h.pointer? this ≠ none)
    (hmember : (∃ p ti, h.pointer? this = some (some p) ∧ h.cell? p = some ti ∧ isUdt sdk ti = true)
      → h.Present memberType)
    (name : String) (byteOffset : UInt64)
    : Meets (answer .status (addMember sdk this name memberType byteOffset)) h
        (if h.pointer? this = some none then some (.status (.error nullImpl)) else none) := by
  apply meets_guarded howned hthis
  intro p ti hpointer hp
  split
  . exact ⟨_, h, rfl, howned⟩
  . next hudt =>
    rw [Bool.not_eq_true', Bool.not_eq_false] at hudt
    rcases deref_impl_present howned (hmember ⟨p, ti, hpointer, hp, hudt⟩) with ⟨q, mtype, hq, hmtype, _⟩
    simp only [bind_apply, impl_apply hq, Option.bind_some, deref_apply hmtype]
    rcases hadd : sdk.addUdm ti name mtype (byteOffset * 8) with ⟨ti', _ | text⟩
    . have hstored := owned_store_then howned hp ti' ok
      exact ⟨_, _, by simpa only [hadd, bind_apply] using hstored.left, hstored.right⟩
    . have hstored := owned_store_then howned hp ti'
        (.error (.sdk "Failed to add member" (name ++ ": " ++ text)))
      exact ⟨_, _, by simpa only [hadd, bind_apply] using hstored.left, hstored.right⟩

theorem addMember_of_absent {this memberType p : Nat} {ti : Ti} (hthis : h.pointer? this = some (some p))
    (hp : h.cell? p = some ti) (hudt : isUdt sdk ti = true) (hmember : h.Absent memberType)
    (name : String) (byteOffset : UInt64)
    : addMember sdk this name memberType byteOffset h = none := by
  unfold addMember withUdt
  rw [guarded_of_present hthis hp, if_neg (by simp [hudt])]
  dsimp only
  rw [bind_apply, impl_apply hmember]
  rfl

end Methods

section Factories

variable {h : Heap Ti}

theorem argumentTinfos_spec (howned : h.Owned) {argumentTypes : List Nat}
    (halive : ∀ o ∈ argumentTypes, h.pointer? o ≠ none)
    : ∃ r, argumentTinfos argumentTypes h = some (r, h)
      ∧ ((argumentTypes.any fun o => h.pointer? o = some none) = true
        → r = .error (.internal "Argument type has null implementation")) := by
  induction argumentTypes with
  | nil => exact ⟨.ok [], rfl, by simp⟩
  | cons o argumentTypes ih =>
    have ho := halive o List.mem_cons_self
    rcases ih fun o' ho' => halive o' (List.mem_cons_of_mem _ ho') with ⟨r, hrun, hr⟩
    unfold argumentTinfos
    rcases present_or_absent ho with hpresent | habsent
    . rcases deref_impl_present howned hpresent with ⟨p, ti, hp, hti, _⟩
      have hany : ((o :: argumentTypes).any fun o => h.pointer? o = some none)
          = argumentTypes.any fun o => h.pointer? o = some none := by
        rw [List.any_cons, hp]
        simp
      rw [hany]
      simp only [bind_apply, impl_apply hp, Option.bind_some, deref_apply hti, hrun]
      cases r with
      | error e => exact ⟨.error e, rfl, hr⟩
      | ok tis =>
        refine ⟨.ok (ti :: tis), rfl, ?_⟩
        intro habsent
        cases hr habsent
    . refine ⟨_, ?_, fun _ => rfl⟩
      rw [bind_apply, impl_apply habsent]
      rfl

theorem meets_functionType (howned : h.Owned) {returnType : Nat} {argumentTypes : List Nat}
    (halive : ∀ o ∈ returnType :: argumentTypes, h.pointer? o ≠ none) (cc : CallingConvention)
    (hasVarargs : Bool)
    : Meets (answer .typeResult (functionType sdk returnType argumentTypes cc hasVarargs)) h
        (documented h (.functionType returnType argumentTypes cc hasVarargs)) := by
  have hreturn := halive returnType List.mem_cons_self
  unfold documented
  dsimp only
  rcases present_or_absent hreturn with hpresent | habsent
  . rcases deref_impl_present howned hpresent with ⟨p, ti, hp, hti, _⟩
    rcases argumentTinfos_spec howned fun o ho => halive o (List.mem_cons_of_mem _ ho) with ⟨r, hrun, hr⟩
    rw [if_neg (by rw [hp]; simp)]
    cases r with
    | error e =>
      refine ⟨.typeResult (.error e), h, ?_, howned, ?_⟩
      . apply answer_apply
        unfold functionType
        simp only [bind_apply, impl_apply hp, Option.bind_some, deref_apply hti, hrun]
        rfl
      . intro b hb
        split at hb
        . next hany =>
          injection hr hany with he
          rw [← Option.some.inj hb, he]
        . cases hb
    | ok args =>
      have hany : ¬(argumentTypes.any fun o => h.pointer? o = some none) = true := by
        intro hany
        cases hr hany
      have hsafe := safe_tryCreate sdk stable_true
        (sdk.createFunc ti (toSdkCallingConvention cc hasVarargs) args)
        (.sdk "Failed to create function type")
      rcases hsafe h howned trivial with ⟨a, h', hcreate, howned', _⟩
      rw [if_neg hany]
      refine ⟨.typeResult a, h', ?_, howned', fun b hb => nomatch hb⟩
      apply answer_apply
      unfold functionType
      simp only [bind_apply, impl_apply hp, Option.bind_some, deref_apply hti, hrun]
      exact hcreate
  . rw [if_pos (show h.pointer? returnType = some none from habsent)]
    refine ⟨_, h, ?_, howned, fun b hb => Option.some.inj hb⟩
    apply answer_apply
    unfold functionType
    rw [bind_apply, impl_apply habsent]
    rfl

theorem safe_enumType {pre : Heap Ti → Prop} (hstable : Stable pre) (members : List EnumMember)
    (byteWidth : UInt64) (bitmask : Bool)
    : Safe pre (enumType sdk members byteWidth bitmask) := by
  unfold enumType
  split
  . exact safe_pure _
  . split
    . exact safe_pure _
    . split
      . exact safe_pure _
      . exact safe_tryCreate sdk hstable _ _

end Factories

section Operations

variable {h : Heap Ti}

theorem meets_of_run {m : Prog Ti α} {a : α} {h' : Heap Ti} (hm : m h = some (a, h')) (howned : h'.Owned)
    (f : α → Answer)
    : Meets (answer f m) h none :=
  ⟨f a, h', answer_apply hm, howned, fun _ hb => nomatch hb⟩

theorem meets_perform (howned : h.Owned) (op : Op) (halive : ∀ o ∈ op.objects, h.pointer? o ≠ none)
    (htakes : TakesPresent sdk h op)
    : Meets (perform sdk op) h (documented h op) := by
  cases op with
  | construct => exact meets_of_run (construct_apply sdk) (Heap.owned_construct howned _) _
  | copyConstruct other =>
    rcases copyConstruct_of_present howned htakes with ⟨ti, hrun⟩
    exact meets_of_run hrun (Heap.owned_construct howned ti) _
  | moveConstruct other =>
    rcases owned_moveConstruct howned (halive other (by simp [Op.objects])) with ⟨o, h', hrun, howned'⟩
    exact meets_of_run hrun howned' _
  | copyAssign this other =>
    have hthis := halive this (by simp [Op.objects])
    by_cases hne : this = other
    . subst hne
      exact meets_of_run (copyAssign_self h this) howned _
    . rcases owned_copyAssign howned hthis hne (htakes hne) with ⟨h', hrun, howned'⟩
      exact meets_of_run hrun howned' _
  | moveAssign this other =>
    have hthis := halive this (by simp [Op.objects])
    have hother := halive other (by simp [Op.objects])
    by_cases hne : this = other
    . subst hne
      exact meets_of_run (moveAssign_self h this) howned _
    . rcases owned_moveAssign howned hthis hne hother with ⟨h', hrun, howned'⟩
      exact meets_of_run hrun howned' _
  | destroy this =>
    rcases owned_destroy howned (halive this (by simp [Op.objects])) with ⟨h', hrun, howned'⟩
    exact meets_of_run hrun howned' _
  | simple type => exact meets_of_safe howned (safe_create_pure sdk _) _
  | pointerTo target =>
    rcases create_of_present sdk howned htakes sdk.createPtr with ⟨ti, hrun⟩
    exact meets_of_run hrun (Heap.owned_construct howned ti) _
  | arrayOf element count =>
    rcases create_of_present sdk howned htakes (sdk.createArray · count.toUInt32) with ⟨ti, hrun⟩
    exact meets_of_run hrun (Heap.owned_construct howned ti) _
  | functionType returnType argumentTypes cc hasVarargs =>
    exact meets_functionType sdk howned halive cc hasVarargs
  | enumType members byteWidth bitmask =>
    exact meets_of_safe howned (safe_enumType sdk stable_true members byteWidth bitmask) _
  | fromDeclaration cDecl => exact meets_of_safe howned (safe_tryCreate sdk stable_true _ _) _
  | createStruct => exact meets_of_safe howned (safe_create_pure sdk _) _
  | createUnion => exact meets_of_safe howned (safe_create_pure sdk _) _
  | byName name => exact meets_of_safe howned (safe_tryCreate sdk stable_true _ _) _
  | call this method =>
    have hthis : h.pointer? this ≠ none := by
      apply halive
      cases method <;> simp [Op.objects]
    by_cases hmethod : ∀ name memberType byteOffset, method ≠ .addMember name memberType byteOffset
    . exact meets_method sdk howned hthis method hmethod
    . simp only [ne_eq, not_forall, not_not] at hmethod
      rcases hmethod with ⟨name, memberType, byteOffset, rfl⟩
      exact meets_addMember sdk howned hthis htakes name byteOffset

theorem perform_of_not_takesPresent (howned : h.Owned) (op : Op)
    (halive : ∀ o ∈ op.objects, h.pointer? o ≠ none) (htakes : ¬TakesPresent sdk h op)
    : perform sdk op h = none := by
  have habsent {o : Nat} (ho : o ∈ op.objects) (hnot : ¬h.Present o) : h.Absent o :=
    (present_or_absent (halive o ho)).resolve_left hnot
  cases op with
  | copyConstruct other =>
    exact answer_none (copyConstruct_of_absent (habsent (by simp [Op.objects]) htakes))
  | copyAssign this other =>
    rw [TakesPresent, Classical.not_imp] at htakes
    have hother := habsent (by simp [Op.objects]) htakes.right
    exact answer_none (copyAssign_of_absent howned (halive this (by simp [Op.objects])) htakes.left hother)
  | pointerTo target =>
    exact answer_none (create_of_absent sdk (habsent (by simp [Op.objects]) htakes) sdk.createPtr)
  | arrayOf element count =>
    exact answer_none
      (create_of_absent sdk (habsent (by simp [Op.objects]) htakes) (sdk.createArray · count.toUInt32))
  | call this method =>
    cases method with
    | addMember name memberType byteOffset =>
      rw [TakesPresent, Classical.not_imp] at htakes
      rcases htakes with ⟨⟨p, ti, hthis, hp, hudt⟩, hmember⟩
      exact answer_none
        (addMember_of_absent sdk hthis hp hudt (habsent (by simp [Op.objects]) hmember) name byteOffset)
    | _ => exact absurd trivial htakes
  | _ => exact absurd trivial htakes

end Operations

section Runs

structure Record where
  expected : Option Answer
  answer : Answer

/--
A run whose behaviour is not defined stops there.
-/
structure Program (Ti : Type) where
  heap : Heap Ti := {}
  faulted : Bool := false
  records : List Record := []

/--
An operation on an object that does not exist is no operation, and has no effect.
-/
def step (p : Program Ti) (op : Op) : Program Ti :=
  if !p.faulted ∧ ∀ o ∈ op.objects, p.heap.pointer? o ≠ none then
    match perform sdk op p.heap with
    | none => { p with faulted := true }
    | some (answer, heap) =>
      { p with heap, records := { expected := documented p.heap op, answer } :: p.records }
  else
    p

structure Program.Sound (p : Program Ti) : Prop where
  faulted : p.faulted = false
  answers : ∀ r ∈ p.records, ∀ b, r.expected = some b → r.answer = b
  owned : p.heap.Owned

def Program.TakesPresent (p : Program Ti) (op : Op) : Prop :=
  (∀ o ∈ op.objects, p.heap.pointer? o ≠ none) → TypeInfo.TakesPresent sdk p.heap op

theorem sound_step_iff (p : Program Ti) (op : Op) (hsound : p.Sound)
    : (step sdk p op).Sound ↔ p.TakesPresent sdk op := by
  unfold step Program.TakesPresent
  by_cases halive : ∀ o ∈ op.objects, p.heap.pointer? o ≠ none
  . rw [if_pos (by simp only [hsound.faulted]; exact ⟨rfl, halive⟩), forall_prop_of_true halive]
    by_cases htakes : TypeInfo.TakesPresent sdk p.heap op
    . rcases meets_perform sdk hsound.owned op halive htakes with ⟨a, heap, hrun, howned, hanswer⟩
      apply iff_of_true _ htakes
      rw [hrun]
      refine ⟨hsound.faulted, ?_, howned⟩
      intro r hr
      rcases List.mem_cons.mp hr with rfl | hr
      . exact hanswer
      . exact hsound.answers r hr
    . apply iff_of_false _ htakes
      rw [perform_of_not_takesPresent sdk hsound.owned op halive htakes]
      intro hsound'
      cases hsound'.faulted
  . rw [if_neg (fun h => halive h.right)]
    exact iff_of_true hsound fun h => absurd h halive

/--
A program never uses an implementation that is not there exactly when it copies only objects that have
one, and takes only such objects as target, element or member type.
-/
theorem always_sound_iff_takesPresent (ops : List Op)
    : Machine.Always (step sdk) Program.Sound {} ops
        ↔ Machine.Guarded (step sdk) (Program.TakesPresent sdk) {} ops := by
  apply Machine.always_iff_guarded (sound_step_iff sdk)
  refine ⟨rfl, by simp, ?_, ?_, ?_⟩
  . intro o p ho
    cases ho
  . intro o o' p ho
    cases ho
  . intro p hp
    exact absurd rfl hp

def structSdk : TinfoSdk Bool where
  empty := false
  createSimpleType _ := false
  createPtr _ := false
  createArray _ _ := false
  createFunc _ _ _ := some false
  setNbytes _ := true
  createEnum _ _ _ := some false
  createUdt _ := true
  parseDecl _ := some false
  getNamedType _ _ := none
  isVoid _ := false
  isIntegral _ := false
  isFloating _ := false
  isPtr _ := false
  isArray _ := false
  isFunc _ := false
  isStruct ti := ti
  isUnion _ := false
  isEnum _ := false
  isTypedef _ := false
  present _ := true
  getSize _ := none
  print _ := none
  getPointedObject _ := false
  getArrayElement _ := false
  getArrayNelems _ := 0
  getFinalTypeName _ := none
  getRettype _ := false
  getFuncDetails _ := none
  getCc _ := .unknown
  isVarargCc _ := false
  getEnumDetails _ := none
  getUdtNmembers _ := 0
  getUdtDetails _ := none
  findUdmByName _ _ := none
  findUdmByOffset _ _ := none
  addUdm ti _ _ _ := (ti, none)
  applyTinfo _ _ := true
  setNamedType ti _ := (ti, none)

theorem not_always_sound_movedFrom
    : ¬Machine.Always (step structSdk) Program.Sound {}
          [.simple .int32, .moveConstruct 0, .copyConstruct 0]
        ∧ ¬Machine.Always (step structSdk) Program.Sound {}
          [.simple .int32, .moveConstruct 0, .copyAssign 1 0]
        ∧ ¬Machine.Always (step structSdk) Program.Sound {}
          [.simple .int32, .moveConstruct 0, .pointerTo 0]
        ∧ ¬Machine.Always (step structSdk) Program.Sound {}
          [.simple .int32, .moveConstruct 0, .createStruct, .call 2 (.addMember "m" 0 0)] := by
  have hfault (ops : List Op) (h : (Machine.run (step structSdk) {} ops).faulted = true)
      : ¬Machine.Always (step structSdk) Program.Sound {} ops := by
    intro halways
    cases h.symm.trans (Machine.always_run halways).faulted
  exact ⟨hfault _ (by decide), hfault _ (by decide), hfault _ (by decide), hfault _ (by decide)⟩

end Runs

end TypeInfo
end Types
end Idax
