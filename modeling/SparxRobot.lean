import SparxRobot.Machine.Run
import SparxRobot.Machine.LastWhere
import SparxRobot.Autonomous.Execute
import SparxRobot.Autonomous.Iteration
import SparxRobot.Autonomous.WellFormed
import SparxRobot.Autonomous.History
import SparxRobot.Autonomous.Sequencing
import SparxRobot.Autonomous.Timers
import SparxRobot.Autonomous.RowBounds
import SparxRobot.Autonomous.Ending
import SparxRobot.Autonomous.Rerun
import SparxRobot.Shooter.Execute
import SparxRobot.Shooter.Iteration
import SparxRobot.Shooter.Command
import SparxRobot.Shooter.Authority
import SparxRobot.Shooter.Interlock
import SparxRobot.Drives.PID
import SparxRobot.Drives.State
import SparxRobot.Drives.Execute
import SparxRobot.Drives.Iteration
import SparxRobot.BallAcq.Execute
import SparxRobot.Robot.Joint
import SparxRobot.Robot.Effect
import SparxRobot.Robot.Motion
import SparxRobot.Robot.Stop
import SparxRobot.Robot.Quiesce
import SparxRobot.Machine.Doorbell
import SparxRobot.Station.Controls
import SparxRobot.Station.Delivery
import SparxRobot.BallAcq.Operator
import SparxRobot.Drives.Command
import SparxRobot.Drives.Exclusion
import SparxRobot.Drives.Standstill
import SparxRobot.Drives.Teleop
import SparxRobot.Java.Remainder
import SparxRobot.Java.Angle
import SparxRobot.Drives.PIDLimits
import SparxRobot.Drives.DistanceDrive
import SparxRobot.Drives.Braking
import SparxRobot.Drives.PointDrive
import SparxRobot.Drives.Turn
import SparxRobot.Drives.RelativeTurn
import SparxRobot.Drives.Bearing
import SparxRobot.Drives.Hold
import SparxRobot.Java.Long
import SparxRobot.Subsystem.Loop
import SparxRobot.Scaling.Execute
import SparxRobot.Machine.Register
import SparxRobot.Vision.Mode
import SparxRobot.Vision.Finder
import SparxRobot.Vision.Table
import SparxRobot.Vision.PegDelivery
import SparxRobot.Control.Saturation
import SparxRobot.Drives.AntiWindup
import SparxRobot.Drives.CallFrequency
import SparxRobot.Sensors.EncoderData
import SparxRobot.Sensors.Ticks
import SparxRobot.Sensors.Reset
import SparxRobot.Autonomous.CSVReader
import SparxRobot.Java.Written
import SparxRobot.Autonomous.WrittenScript
import SparxRobot.Drives.PublicMethods
import SparxRobot.Drives.Diagnostics
import SparxRobot.Drives.NavX
import SparxRobot.Drives.Odometry
import SparxRobot.Vision.Compensation
import SparxRobot.Control.Deadband
import SparxRobot.Station.Axes
import SparxRobot.Drives.Sticks
import SparxRobot.Shooter.Distance
import SparxRobot.Shooter.Diagnostics
import SparxRobot.Shooter.Flywheel
import SparxRobot.BallAcq.Belts
import SparxRobot.Vision.Refresh
import SparxRobot.Vision.HighGoal
import SparxRobot.Autonomous.FailedRead
import SparxRobot.Cpp.Text
import SparxRobot.Vision.ConfigReader
import SparxRobot.Vision.Contours
import SparxRobot.Vision.FinderConfig
import SparxRobot.Codec.BigEndian
import SparxRobot.Codec.Reader
import SparxRobot.NetworkTables.Outgoing
import SparxRobot.NetworkTables.RoundTrip
import SparxRobot.NetworkTables.Server
import SparxRobot.NetworkTables.Convergence
import SparxRobot.NetworkTables.Settling
import SparxRobot.Vision.Frames
import SparxRobot.NetworkTables.Agreement
import SparxRobot.Codec.Base64
import SparxRobot.NetworkTables.Saving
import SparxRobot.NetworkTables.FirstUpdates
