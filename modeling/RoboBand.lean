import RoboBand.Data.Machine
import RoboBand.Io.SerialFraming
import RoboBand.Io.SerialReturns
import RoboBand.Data.FramingProgress
import RoboBand.Io.SerialProgress
import RoboBand.Io.SerialSend
import RoboBand.Data.Clamp
import RoboBand.Data.Saturation
import RoboBand.Util.Siso
import RoboBand.Data.NestedMap
import RoboBand.Util.Pid
import RoboBand.Util.Toml
import RoboBand.Util.MergeConfig
import RoboBand.Util.MergeStable
import RoboBand.App.RobotCreate
import RoboBand.Virtual.FiveLink
import RoboBand.Virtual.FiveLinkPower
import RoboBand.Data.Crc
import RoboBand.Dev.UnitreeFrame
import RoboBand.Dev.UnitreeMotor
import RoboBand.Dev.UnitreeCommands
import RoboBand.Dev.UnitreeCalibration
import RoboBand.Dev.UnitreeBus
import RoboBand.App.Aokee
import RoboBand.App.AokeeCalibration
import RoboBand.Ctrl.RealTimeRunner
import RoboBand.Dev.UnitreeShortRead
import RoboBand.Data.XorWord
import RoboBand.Data.ShiftRegister
import RoboBand.Data.CrcErrors
import RoboBand.Dev.UnitreeCorruption
import RoboBand.Io.BufferBounds
import RoboBand.Ctrl.LifeCycle
import RoboBand.Virtual.MotorStorage
import RoboBand.Ctrl.WebotsRunner
import RoboBand.Ctrl.Lockstep
import RoboBand.Ctrl.LockstepInvariant
import RoboBand.Ctrl.Shutdown
import RoboBand.Ctrl.Deadlock
import RoboBand.Ctrl.SimulationStep
import RoboBand.Dev.WebotsMotor
import RoboBand.App.AokeeRetract
import RoboBand.Data.SignedPerm
import RoboBand.Ctrl.BalanceSys
import RoboBand.Data.Dyad
import RoboBand.Virtual.FiveLinkGeometry
import RoboBand.Virtual.FiveLinkJacobian
import RoboBand.Util.PidWindup
import RoboBand.Data.FixedPoint
import RoboBand.Dev.UnitreeTorque
import RoboBand.Virtual.MotorChain
import RoboBand.Data.Composition
import RoboBand.Dev.UnitreeBank
import RoboBand.Dev.UnitreeFeedback
import RoboBand.Dev.UnitreeLine
import RoboBand.Data.Program
import RoboBand.Ctrl.WheelLeggedChassis
import RoboBand.App.AokeeControl
import RoboBand.Virtual.FiveLinkWork
import RoboBand.Virtual.FiveLinkMirror
import RoboBand.Io.IoKey
import RoboBand.Ctrl.BalanceControl
import RoboBand.App.LqrSim
import RoboBand.App.LqrSimSamples
import RoboBand.Util.Config
import RoboBand.App.AokeeSettings
import RoboBand.Io.SocketAddress
import RoboBand.Virtual.ImuStorage
import RoboBand.App.LqrSimSettings
import RoboBand.Data.Supervisor
import RoboBand.Data.SupervisorRun
import RoboBand.Robot.RealTimeRobot
