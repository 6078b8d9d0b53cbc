import NodeFormula.Catalog.Basic

/-!
# Overloaded functions

A function name stands for several candidates, tried in this order.  A candidate
is an alias of a node or a node with its properties given directly.
-/

namespace NodeFormula.Catalog

def aliased (table : List (String × List String)) : List (String × List Candidate) :=
  table.map fun (name, aliases) => (name, aliases.map .alias)

def sharedOverloads : List (String × List Candidate) := aliased
  [("add", ["math_add", "vector_math_add"]),
   ("sub", ["math_subtract", "vector_math_subtract"])] ++
  ("mul", [.alias "math_multiply", .alias "vector_math_multiply", .alias "vector_math_scale",
      .direct (recipe "ShaderNodeVectorMath" [3, 0] [0] [("operation", "SCALE")])]) :: aliased
  [("div", ["math_divide", "vector_math_divide"]),
   ("mul_add", ["math_multiply_add", "vector_math_multiply_add"]),
   ("pow", ["math_power"]),
   ("log", ["math_logarithm"]),
   ("sqrt", ["math_square_root"]),
   ("inv_sqrt", ["math_inverse_square_root"]),
   ("abs", ["math_absolute", "vector_math_absolute"]),
   ("exp", ["math_exponent"]),
   ("min", ["math_minimum", "vector_math_minimum"]),
   ("max", ["math_maximum", "vector_math_maximum"]),
   ("less_than", ["math_less_than"]),
   ("greater_than", ["math_greater_than"]),
   ("sign", ["math_sign"]),
   ("smin", ["math_smooth_minimum"]),
   ("smax", ["math_smooth_maximum"]),
   ("round", ["math_round"]),
   ("floor", ["math_floor", "vector_math_floor"]),
   ("ceil", ["math_ceil", "vector_math_ceil"]),
   ("truncate", ["math_truncate"]),
   ("fract", ["math_fraction", "vector_math_fraction"]),
   ("mod", ["math_modulo", "vector_math_modulo"]),
   ("wrap", ["math_wrap", "vector_math_wrap"]),
   ("snap", ["math_snap", "vector_math_snap"]),
   ("ping_pong", ["math_ping_pong"]),
   ("sin", ["math_sine", "vector_math_sine"]),
   ("cos", ["math_cosine", "vector_math_cosine"]),
   ("tan", ["math_tangent", "vector_math_tangent"]),
   ("asin", ["math_arcsine"]),
   ("acos", ["math_arccosine"]),
   ("atan", ["math_arctangent"]),
   ("atan2", ["math_arctan2"]),
   ("sinh", ["math_hyperbolic_sine"]),
   ("cosh", ["math_hyperbolic_cosine"]),
   ("tanh", ["math_hyperbolic_tangent"]),
   ("to_radians", ["math_to_radians"]),
   ("to_degrees", ["math_to_degrees"]),
   ("vec3", ["combine_xyz"]),
   ("sep_xyz", ["separate_xyz"]),
   ("cross", ["vector_math_cross_product"]),
   ("project", ["vector_math_project"]),
   ("reflect", ["vector_math_reflect"]),
   ("face_forward", ["vector_math_faceforward"]),
   ("dot", ["vector_math_dot_product"]),
   ("dist", ["vector_math_distance"]),
   ("length", ["vector_math_length"]),
   ("scale", ["vector_math_scale"]),
   ("normalize", ["vector_math_normalize"]),
   ("map", ["map_range_linear_float", "map_range_linear_vector"]),
   ("map_stepped", ["map_range_stepped_linear_float", "map_range_stepped_linear_vector"]),
   ("smoothstep", ["map_range_smooth_step_float", "map_range_smooth_step_vector"]),
   ("smootherstep", ["map_range_smoother_step_float", "map_range_smoother_step_vector"]),
   ("mix", ["mix_float_uniform_mix", "mix_vector_uniform_mix", "mix_color_uniform_mix"]),
   ("white_noise", ["white_noise_texture_1d", "white_noise_texture_3d"]),
   ("white_noise_2d", ["white_noise_texture_2d"]),
   ("white_noise_4d", ["white_noise_texture_4d"]),
   ("noise", ["noise_texture_1d", "noise_texture_3d"]),
   ("noise_2d", ["noise_texture_2d"]),
   ("noise_4d", ["noise_texture_4d"]),
   ("voronoi", ["voronoi_texture_1d_euclidean_f1", "voronoi_texture_3d_euclidean_f1"]),
   ("voronoi_2d", ["voronoi_texture_2d_euclidean_f1"]),
   ("voronoi_4d", ["voronoi_texture_4d_euclidean_f1"])]

def geometryOverloads : List (String × List Candidate) := aliased
  [("_and", ["boolean_math_and"]),
   ("_or", ["boolean_math_or"]),
   ("_not", ["boolean_math_not"]),
   ("round", ["float_to_integer_round"]),
   ("floor", ["float_to_integer_floor"]),
   ("ceil", ["float_to_integer_ceiling"]),
   ("trunc", ["float_to_integer_truncate"]),
   ("less_than", ["compare_less_than_float_element_wise", "compare_less_than_integer_element_wise",
      "compare_less_than_vector_element_wise"]),
   ("less_equal", ["compare_less_than_or_equal_float_element_wise",
      "compare_less_than_or_equal_integer_element_wise",
      "compare_less_than_or_equal_vector_element_wise"]),
   ("greater_than", ["compare_greater_than_float_element_wise",
      "compare_greater_than_integer_element_wise", "compare_greater_than_vector_element_wise"]),
   ("greater_equal", ["compare_greater_than_or_equal_float_element_wise",
      "compare_greater_than_or_equal_integer_element_wise",
      "compare_greater_than_or_equal_vector_element_wise"]),
   ("equal", ["compare_equal_float_element_wise", "compare_equal_integer_element_wise",
      "compare_equal_vector_element_wise", "compare_equal_color_element_wise"]),
   ("not_equal", ["compare_not_equal_float_element_wise", "compare_not_equal_integer_element_wise",
      "compare_not_equal_vector_element_wise", "compare_not_equal_color_element_wise"]),
   ("rand", ["random_value_float", "random_value_vector"]),
   ("rand_int", ["random_value_integer"]),
   ("rand_bool", ["random_value_boolean"])]

def shaderOverloads : List (String × List Candidate) :=
  [("tex_coords", [.alias "texture_coordinate"]),
   ("normal", [.direct (recipe "ShaderNodeTexCoord" [] [1] [])]),
   ("geometry", [.direct (recipe "ShaderNodeNewGeometry" [] [0, 1, 2, 3, 4, 5, 6, 7] [])]),
   ("position", [.direct (recipe "ShaderNodeNewGeometry" [] [0] [])])]

end NodeFormula.Catalog
