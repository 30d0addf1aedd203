import RoboBand.Virtual.FloatMath
import Mathlib.LinearAlgebra.Matrix.Notation

namespace RoboBand.Virtual

open Matrix

open FloatMath

/-- A motor as the leg reads it. -/
structure Motor (R : Type*) where
  angle : R
  speed : R

namespace Motor

variable {R : Type*}

def getAngle (motor : Motor R) : R := motor.angle

def getSpeed (motor : Motor R) : R := motor.speed

end Motor

structure FiveLink (R : Type*) where
  lA : R
  lB : R
  lC : R
  l : R
  dotL : R
  thetaL : R
  dotThetaL : R
  motor1 : Motor R
  motor2 : Motor R
  varphi1 : R
  varphi2 : R
  varphiB1 : R
  xB2 : R
  yB2 : R
  xC : R
  yC : R
  jacobianTrans : Matrix (Fin 2) (Fin 2) R

namespace FiveLink

variable {R : Type*} [Field R] [FloatMath R]

/-- The member initialisers; Eigen leaves the matrix unset. -/
def new (param : Fin 3 → R) (motor1 motor2 : Motor R)
    (unset : Matrix (Fin 2) (Fin 2) R) : FiveLink R where
  lA := param 0
  lB := param 1
  lC := param 2
  l := 0
  dotL := 0
  thetaL := 0
  dotThetaL := 0
  motor1 := motor1
  motor2 := motor2
  varphi1 := 0
  varphi2 := 0
  varphiB1 := 0
  xB2 := 0
  yB2 := 0
  xC := 0
  yC := 0
  jacobianTrans := unset

def forwardSolve (leg : FiveLink R) : FiveLink R :=
  let xB1 := leg.lA - leg.lB * cosf leg.varphi1
  let leg := { leg with xB2 := -leg.lA + leg.lB * cosf leg.varphi2 }
  let yB1 := leg.lB * sinf leg.varphi1
  let leg := { leg with yB2 := leg.lB * sinf leg.varphi2 }
  let xB := xB1 - leg.xB2
  let yB := yB1 - leg.yB2
  let leg := { leg with
    varphiB1 := acosf (sqrtf (xB * xB + yB * yB) / (2 * leg.lC)) -
      atan2f yB xB }
  let leg := { leg with
    xC := leg.lA - leg.lB * cosf leg.varphi1 - leg.lC * cosf leg.varphiB1
    yC := leg.lB * sinf leg.varphi1 + leg.lC * sinf leg.varphiB1 }
  { leg with
    l := sqrtf (leg.xC * leg.xC + leg.yC * leg.yC)
    thetaL := atan2f leg.xC leg.yC }

def jacobianCalc (leg : FiveLink R) : FiveLink R :=
  let lBOverL := leg.lB / leg.l
  let varphiB2 := atan2f (leg.yC - leg.yB2) (leg.xC - leg.xB2)
  let sinSum := sinf (leg.varphiB1 + varphiB2)
  { leg with
    jacobianTrans :=
      !![-leg.lB * cosf (leg.thetaL + varphiB2) *
            sinf (leg.varphi1 - leg.varphiB1) / sinSum,
          lBOverL * sinf (leg.thetaL + varphiB2) *
            sinf (leg.varphi1 - leg.varphiB1) / sinSum;
        -leg.lB * cosf (leg.thetaL - leg.varphiB1) *
            sinf (leg.varphi2 - varphiB2) / sinSum,
          lBOverL * sinf (leg.thetaL - leg.varphiB1) *
            sinf (leg.varphi2 - varphiB2) / sinSum] }

def update (leg : FiveLink R) : FiveLink R :=
  let leg := { leg with
    varphi1 := leg.motor1.getAngle
    varphi2 := leg.motor2.getAngle }
  let leg := leg.forwardSolve
  let leg := leg.jacobianCalc
  let joint := ![leg.varphi1, leg.varphi2]
  let task := leg.jacobianTrans *ᵥ joint
  { leg with dotL := task 0, dotThetaL := task 1 }

omit [FloatMath R] in
def setForce (leg : FiveLink R) (F_n tau_j : R) : R × R :=
  let forceVirtual := ![F_n, tau_j]
  let forceActual := leg.jacobianTrans *ᵥ forceVirtual
  (forceActual 0, forceActual 1)

end FiveLink

end RoboBand.Virtual
